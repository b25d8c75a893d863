import ViewLint.Config.File
import ViewLint.Proofs.Files.Place

/-!
# Configurations come from enclosing directories

The search for a configuration drops the last component of a path until one is found. As long as
the components that were dropped are names, each leads to the directory around the one before, so
the configuration that is found is that of the nearest enclosing directory that has a valid one. A
dropped parent leads the other way, and then a configuration of another directory can be found.

## Main definitions

* `Config.StandsAt`: a directory holds a valid configuration file.
* `FileSystem.startPlace`: the directory in which the search for a configuration starts.

## Main results

* `Config.inDirectory?_eq_some_iff`: when a configuration is found in the directory of a path.
* `Config.findSome?_chain`, `Config.findSome?_chain_eq_none`: which paths a search passes.
* `Config.load_enclosing`: where the configuration for a path comes from.
* `Config.load_of_parent`: with a parent in the path, it can come from below.
-/

namespace ViewLint

open ViewLint.Path (Component components)

/-- The directory in which the search for a configuration starts: the one around a file, or the
place to which the path leads. -/
def FileSystem.startPlace (fs : FileSystem) (path : String) : Location :=
  if fs.isFile path then (fs.locate path).dropLast else fs.locate path

namespace Config

variable {fs : FileSystem} {path dir : String} {place base : Location} {c : Config}
  {cs front part : List Component}

/-- The configuration file in a directory is there and is valid. -/
def StandsAt (c : Config) (fs : FileSystem) (place : Location) : Prop :=
  ∃ bytes text, fs.look (place ++ [fileName]) = some (some bytes) ∧
    String.fromUTF8? bytes = some text ∧ ofToml? text = some c

theorem isName_fileName : Path.IsName fileName := by
  decide

/-! ### One directory -/

/-- The configuration in the directory of a path is read where its components lead. -/
theorem inDirectory?_eq_some_iff {found : Config} :
    inDirectory? fs dir = some found ↔ ∃ (place : Location) (c : Config),
      (components dir).foldlM fs.enter fs.here = .ok place ∧ c.StandsAt fs place ∧
        { c with file? := some (Path.join dir fileName) } = found := by
  have hread {text : String} : (fs.readText (Path.join dir fileName)).toOption = some text ↔
      fs.readText (Path.join dir fileName) = .ok text := by
    cases fs.readText (Path.join dir fileName) <;> simp [Except.toOption]
  simp only [inDirectory?, Option.bind_eq_bind, Option.bind_eq_some_iff, hread,
    FileSystem.readText_join_eq_ok_iff isName_fileName]
  constructor
  · rintro ⟨text, ⟨place, bytes, hplace, hlook, htext⟩, c, hc, hfound⟩
    exact ⟨place, c, hplace, ⟨bytes, text, hlook, htext, hc⟩, Option.some.inj hfound⟩
  · rintro ⟨place, c, hplace, ⟨bytes, text, hlook, htext, hc⟩, rfl⟩
    exact ⟨text, ⟨place, bytes, hplace, hlook, htext⟩, c, hc, rfl⟩

/-- A valid configuration is found through every path whose further components are names that lead
to its directory. -/
theorem inDirectory?_ne_none (hdir : components dir = front ++ part)
    (hfront : front.foldlM fs.enter fs.here = .ok base) (hroot : .root ∉ part)
    (hparent : .parent ∉ part) (hc : c.StandsAt fs (part.foldl Component.move base)) :
    inDirectory? fs dir ≠ none := by
  have hname : ∀ text, .name text ∈ part → Path.IsName text := fun text htext =>
    Path.isName_of_mem_components (hdir ▸ List.mem_append_right front htext)
  have hsome : (fs.root.at? (part.foldl Component.move base)).isSome = true := by
    obtain ⟨bytes, text, hlook, -⟩ := hc
    obtain ⟨e, he, -⟩ := Option.map_eq_some_iff.mp hlook
    rw [Entry.at?_append] at he
    exact Option.isSome_of_isSome_bind (Option.isSome_of_eq_some he)
  have hlead : (components dir).foldlM fs.enter fs.here =
      .ok (part.foldl Component.move base) := by
    rw [hdir, List.foldlM_append, hfront]
    exact FileSystem.foldlM_enter_of_at? hroot hparent hname hsome
  rw [inDirectory?_eq_some_iff.mpr ⟨_, c, hlead, hc, rfl⟩]
  exact Option.some_ne_none _

/-- The configuration file of a directory is named by the path of the directory and its name. -/
theorem StandsAt.resolve_join (hc : c.StandsAt fs place)
    (hplace : (components dir).foldlM fs.enter fs.here = .ok place) :
    fs.resolve (Path.join dir fileName) = .ok (place ++ [fileName]) := by
  obtain ⟨bytes, text, hlook, -⟩ := hc
  obtain ⟨e, he, -⟩ := Option.map_eq_some_iff.mp hlook
  rw [FileSystem.resolve_join fs dir isName_fileName, hplace]
  exact (FileSystem.step_name isName_fileName).mpr ⟨rfl, Option.isSome_of_eq_some he⟩

/-! ### The search -/

variable {α : Type} {f : String → Option α} {limit : Nat} {a : α}

/-- A search that finds something has passed all paths between its start and what was found. -/
theorem findSome?_chain (h : (Path.chain limit path).findSome? f = some a) :
    ∃ dir dropped, f dir = some a ∧ components path = components dir ++ dropped ∧
      .root ∉ dropped ∧ ∀ part, part ≠ [] → part <+: dropped →
        ∃ dir', components dir' = components dir ++ part ∧ f dir' = none := by
  induction limit generalizing path with
  | zero => cases h
  | succ limit ih =>
    cases hpath : f path with
    | some b =>
      have hb : b = a := by
        rw [Path.chain] at h
        split at h <;> simpa [List.findSome?_cons, hpath] using h
      exact ⟨path, [], hb ▸ hpath, (List.append_nil _).symm, List.not_mem_nil,
        fun part hne hpart => absurd (List.prefix_nil.mp hpart) hne⟩
    | none =>
      rw [Path.chain] at h
      split at h
      next => simp [hpath] at h
      next parent hparent =>
        obtain ⟨last, hlast, hcs⟩ := Path.parent?_eq_some hparent
        rw [List.findSome?_cons, hpath] at h
        obtain ⟨dir, dropped, hdir, hdropped, hroot, hpassed⟩ := ih h
        refine ⟨dir, dropped ++ [last], hdir, ?_, ?_, fun part hne hpart => ?_⟩
        · rw [hcs, hdropped, List.append_assoc]
        · simpa [hroot] using Ne.symm hlast
        · -- The start itself is the longest of the paths that were passed.
          rcases List.prefix_concat_iff.mp hpart with rfl | hpart
          · exact ⟨path, by rw [hcs, hdropped, List.append_assoc], hpath⟩
          · exact hpassed part hne hpart

/-- A search that finds nothing has passed all paths above its start. -/
theorem findSome?_chain_eq_none (h : (Path.chain limit path).findSome? f = none)
    (hlimit : (components path).length < limit) (hcs : components path = front ++ part)
    (hroot : front = [] → .root ∉ part) : ∃ dir, components dir = front ∧ f dir = none := by
  rw [List.findSome?_eq_none_iff] at h
  induction limit generalizing path part with
  | zero => exact absurd hlimit (Nat.not_lt_zero _)
  | succ limit ih =>
    cases hparent : Path.parent? path with
    | none =>
      rw [Path.chain, hparent, List.forall_mem_singleton] at h
      have hpart : part = [] := by
        rcases Path.parent?_eq_none hparent with hpath | hpath
        · exact (List.append_eq_nil_iff.mp (hcs.symm.trans hpath)).2
        · rcases List.append_eq_singleton_iff.mp (hcs.symm.trans hpath) with hpart | hpart
          · exact absurd (hpart.2 ▸ List.mem_singleton_self _) (hroot hpart.1)
          · exact hpart.2
      exact ⟨path, by rw [hcs, hpart, List.append_nil], h⟩
    | some parent =>
      rw [Path.chain, hparent, List.forall_mem_cons] at h
      rcases List.eq_nil_or_concat part with rfl | ⟨rest, last, rfl⟩
      · exact ⟨path, by rw [hcs, List.append_nil], h.1⟩
      · obtain ⟨c, -, hpath⟩ := Path.parent?_eq_some hparent
        rw [List.concat_eq_append] at hcs hroot
        have hrest : components parent = front ++ rest := by
          rw [hcs, ← List.append_assoc] at hpath
          exact (List.append_inj' hpath rfl).1.symm
        refine ih h.2 ?_ hrest fun hfront hmem => hroot hfront (List.mem_append_left _ hmem)
        rw [hpath, List.length_append, List.length_singleton] at hlimit
        exact Nat.lt_of_succ_lt_succ hlimit

/-! ### The start -/

/-- The search for the configuration of a file starts at the path without its name. -/
theorem components_startDirectory (h : fs.isFile path = true) :
    ∃ name, components path = components (startDirectory fs path) ++ [.name name] := by
  obtain ⟨front, name, hcs⟩ := FileSystem.components_of_isFile h
  rw [startDirectory, if_pos h]
  cases hparent : Path.parent? path with
  | none =>
    rcases Path.parent?_eq_none hparent with hpath | hpath
    · simp [hpath] at hcs
    · simp [hpath, List.cons_eq_append_iff] at hcs
  | some parent =>
    obtain ⟨c, -, hpath⟩ := Path.parent?_eq_some hparent
    have hfront : components parent = front := (List.append_inj' (hpath.symm.trans hcs) rfl).1
    exact ⟨name, by rw [Option.getD_some, hfront, hcs]⟩

theorem startDirectory_of_not (h : ¬fs.isFile path = true) : startDirectory fs path = path :=
  if_neg h

theorem locate_startDirectory (fs : FileSystem) (path : String) :
    fs.locate (startDirectory fs path) = fs.startPlace path := by
  rw [FileSystem.startPlace]
  split
  next hfile =>
    obtain ⟨name, hcs⟩ := components_startDirectory hfile
    rw [FileSystem.locate, FileSystem.locate, hcs, List.foldl_append]
    exact List.dropLast_concat.symm
  next hfile => rw [startDirectory_of_not hfile]

/-- The components that lead from a directory back to the start. -/
theorem startPlace_eq (hcs : components (startDirectory fs path) = components dir ++ part)
    (hplace : (components dir).foldlM fs.enter fs.here = .ok place) :
    fs.startPlace path = part.foldl Component.move place := by
  have hname : ∀ text, .name text ∈ components dir → Path.IsName text := fun _ =>
    Path.isName_of_mem_components
  rw [← locate_startDirectory, FileSystem.locate, hcs, List.foldl_append,
    ← FileSystem.eq_foldl_move hname hplace]

theorem startDirectory_prefix_components (fs : FileSystem) (path : String) :
    components (startDirectory fs path) <+: components path := by
  by_cases hfile : fs.isFile path = true
  · obtain ⟨name, hcs⟩ := components_startDirectory hfile
    exact hcs ▸ List.prefix_append _ _
  · exact (startDirectory_of_not hfile).symm ▸ List.prefix_rfl

theorem isAbsolute_startDirectory (fs : FileSystem) (path : String) :
    Path.isAbsolute (startDirectory fs path) = Path.isAbsolute path := by
  by_cases hfile : fs.isFile path = true
  · obtain ⟨name, hcs⟩ := components_startDirectory hfile
    rw [Bool.eq_iff_iff, Path.isAbsolute_iff_opening, Path.isAbsolute_iff_opening, Path.opening,
      Path.opening, hcs]
    cases components (startDirectory fs path) <;> simp
  · rw [startDirectory_of_not hfile]

/-- The components of a path after its root, and the place from which they lead on. -/
theorem exists_front (fs : FileSystem) (path : String) :
    ∃ front cs, components path = front ++ cs ∧ .root ∉ cs ∧
      front.foldlM fs.enter fs.here = .ok (if Path.isAbsolute path then [] else fs.here) ∧
      fs.locate path = cs.foldl Component.move (if Path.isAbsolute path then [] else fs.here) := by
  by_cases habsolute : Path.isAbsolute path = true
  · rw [if_pos habsolute]
    obtain ⟨cs, hcs⟩ := List.head?_eq_some_iff.mp (Path.isAbsolute_iff_opening.mp habsolute)
    refine ⟨[.root], cs, hcs, (Path.not_mem_of_components hcs).1, rfl, ?_⟩
    rw [FileSystem.locate, hcs]
    rfl
  · rw [if_neg habsolute]
    have hroot : .root ∉ components path := fun hmem =>
      habsolute (Path.isAbsolute_iff_opening.mpr (Path.opening_of_root_mem hmem))
    exact ⟨[], components path, rfl, hroot, rfl, rfl⟩

/-! ### The configuration for a path -/

theorem load_eq_some {file : String} (h : (load fs path).file? = some file) :
    (Path.ancestors (startDirectory fs path)).findSome? (inDirectory? fs) =
      some (load fs path) := by
  rw [load] at h ⊢
  cases hfound : (Path.ancestors (startDirectory fs path)).findSome? (inDirectory? fs) with
  | none =>
    rw [hfound] at h
    cases h
  | some found => rfl

theorem load_eq_none (h : (load fs path).file? = none) :
    (Path.ancestors (startDirectory fs path)).findSome? (inDirectory? fs) = none := by
  cases hfound : (Path.ancestors (startDirectory fs path)).findSome? (inDirectory? fs) with
  | none => rfl
  | some found =>
    obtain ⟨dir, -, hdir⟩ := List.exists_of_findSome?_eq_some hfound
    obtain ⟨place, c, -, -, rfl⟩ := inDirectory?_eq_some_iff.mp hdir
    rw [load, hfound] at h
    cases h

/-- If no configuration is found for a path without parents, there is none around its start. -/
theorem not_standsAt_of_load (hnone : (load fs path).file? = none)
    (hparent : .parent ∉ components path)
    (habove : (if Path.isAbsolute path then [] else fs.here) <+: place)
    (hbelow : place <+: fs.startPlace path) : ¬c.StandsAt fs place := by
  intro hc
  obtain ⟨front, cs, hcs, hroot, hfront, hlocate⟩ := exists_front fs (startDirectory fs path)
  rw [isAbsolute_startDirectory] at hfront hlocate
  rw [← locate_startDirectory, hlocate] at hbelow
  have hsubset := (startDirectory_prefix_components fs path).subset
  have hparent : .parent ∉ cs := fun h =>
    hparent (hsubset (hcs ▸ List.mem_append_right front h))
  obtain ⟨part, ⟨rest, rfl⟩, rfl⟩ :=
    FileSystem.exists_prefix_of_place hroot hparent habove hbelow
  obtain ⟨dir, hdir, hdirNone⟩ := findSome?_chain_eq_none (load_eq_none hnone)
    (Nat.lt_succ_of_le (Path.length_components_le _)) (hcs.trans (List.append_assoc ..).symm)
    (fun _ h => hroot (List.mem_append_right part h))
  exact inDirectory?_ne_none hdir hfront (fun h => hroot (List.mem_append_left rest h))
    (fun h => hparent (List.mem_append_left rest h)) hc hdirNone

/-- **A configuration comes from the nearest enclosing directory.** The configuration that is
returned is a valid one of the directory of its file, and that directory is reached from the start
by dropping components. If no parent is among them, the directory is the start or encloses it, and
no directory between them has a valid configuration. If no configuration is returned and the path
has no parents, no directory from the start up to the root, or to the working directory for a
relative path, has a valid configuration. -/
theorem load_enclosing (fs : FileSystem) (path : String) :
    (∀ file, (load fs path).file? = some file → ∃ (dir : String) (dropped : List Component)
      (place : Location) (c : Config),
        components (startDirectory fs path) = components dir ++ dropped ∧
        file = Path.join dir fileName ∧ fs.resolve file = .ok (place ++ [fileName]) ∧
        c.StandsAt fs place ∧ load fs path = { c with file? := some file } ∧
        (.parent ∉ dropped → place <+: fs.startPlace path ∧
          ∀ nearer, place <+: nearer → nearer <+: fs.startPlace path → nearer ≠ place →
            ∀ c : Config, ¬c.StandsAt fs nearer)) ∧
    ((load fs path).file? = none → .parent ∉ components path →
      ∀ place, (if Path.isAbsolute path then [] else fs.here) <+: place →
        place <+: fs.startPlace path → ∀ c : Config, ¬c.StandsAt fs place) := by
  refine ⟨fun file hfile => ?_, fun hnone hparent place habove hbelow c =>
    not_standsAt_of_load hnone hparent habove hbelow⟩
  obtain ⟨dir, dropped, hdir, hcs, hroot, hpassed⟩ := findSome?_chain (load_eq_some hfile)
  obtain ⟨place, c, hplace, hc, hfound⟩ := inDirectory?_eq_some_iff.mp hdir
  obtain rfl : Path.join dir fileName = file := by
    rw [← hfound] at hfile
    exact Option.some.inj hfile
  refine ⟨dir, dropped, place, c, hcs, rfl, hc.resolve_join hplace, hc, hfound.symm,
    fun hparent => ?_⟩
  rw [startPlace_eq hcs hplace]
  constructor
  · rw [FileSystem.foldl_move hroot hparent]
    exact List.prefix_append _ _
  · -- Each nearer directory is reached along some of the dropped names, so it was passed.
    intro nearer habove hbelow hne c' hc'
    obtain ⟨part, hpart, rfl⟩ := FileSystem.exists_prefix_of_place hroot hparent habove hbelow
    have hpartNe : part ≠ [] := by
      rintro rfl
      exact hne rfl
    obtain ⟨dir', hdir', hnone⟩ := hpassed part hpartNe hpart
    exact inDirectory?_ne_none hdir' hplace (fun h => hroot (hpart.subset h))
      (fun h => hparent (hpart.subset h)) hc' hnone

/-- An empty configuration file around the directory `src`, in which there is an invalid one. -/
def aroundInvalid : FileSystem where
  root := .directory [(fileName, .file ByteArray.empty),
    ("src", .directory [(fileName, .file "=".toUTF8)])]
  here := []

/-- The search passes the invalid file and uses the one around it. -/
theorem load_enclosing_invalid :
    (load aroundInvalid "src").file? = some fileName ∧
      (∀ c : Config, ¬c.StandsAt aroundInvalid ["src"]) ∧
      ∃ c : Config, c.StandsAt aroundInvalid [] := by
  have hfile : (load aroundInvalid "src").file? = some fileName := by decide +kernel
  obtain ⟨dir, dropped, place, c, hcs, hjoin, hplace, hc, -, hnearest⟩ :=
    (load_enclosing aroundInvalid "src").1 fileName hfile
  have hdir : components dir = [] := by
    have hcomponents : [] ++ [.name fileName] = components dir ++ [.name fileName] := by
      rw [← Path.components_join dir isName_fileName, ← hjoin]
      rfl
    exact (List.append_cancel_right hcomponents).symm
  obtain rfl : [.name "src"] = dropped := by
    rw [hdir] at hcs
    exact hcs
  obtain rfl : [] = place := by
    have hfound : [] ++ [fileName] = place ++ [fileName] := Except.ok.inj hplace
    exact List.append_cancel_right hfound
  exact ⟨hfile, (hnearest (by decide)).2 ["src"] (by decide) (by decide) (by decide), c, hc⟩

/-- An empty configuration file in the directory `src`, and none around it. -/
def belowRoot : FileSystem where
  root := .directory [("src", .directory [(fileName, .file ByteArray.empty)])]
  here := []

/-- **A parent leads the search down.** The path `src/..` leads to the directory around `src`. The
search drops the parent and then uses the configuration in `src`, which encloses nothing of it. -/
theorem load_of_parent :
    (load belowRoot "src/..").file? = some "src/.keyview.toml" ∧
      belowRoot.resolve "src/.." = .ok (belowRoot.startPlace "src/..") ∧
      belowRoot.resolve "src/.keyview.toml" = .ok (["src"] ++ [fileName]) ∧
      ¬["src"] <+: belowRoot.startPlace "src/.." :=
  ⟨by decide +kernel, rfl, rfl, by decide⟩

end Config

end ViewLint
