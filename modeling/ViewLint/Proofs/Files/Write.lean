import ViewLint.Files.System
import ViewLint.Proofs.Text.Slice

/-!
# Writing files

What stands at a place of a file system is nothing, a directory, or a file with its bytes. Which
place a path names depends on the places alone and not on the bytes, so writing a file that is there
changes what is read through the paths that name its place, and nothing else.

## Main definitions

* `FileSystem.look`: what stands at a place.
* `FileSystem.Apart`: paths that do not name one place.
* `FileSystem.Aligned`: file systems with the same files and directories, whatever their bytes.

## Main results

* `FileSystem.Aligned.resolve_eq`: paths name the same places in aligned file systems.
* `FileSystem.readText_eq_ok_iff`: which text is read through a path.
* `FileSystem.look_write`: what stands where after a file was written.
-/

namespace ViewLint

namespace Entry

/-- The bytes of a file. -/
def bytes? : Entry → Option ByteArray
  | .file bytes => some bytes
  | .directory _ => none

theorem lookup_map_replace (name other : String) (new : Entry) (entries : List (String × Entry)) :
    (entries.map fun e => if e.1 == name then (name, new) else e).lookup other =
      if other = name then (entries.lookup name).map fun _ => new else entries.lookup other := by
  induction entries with
  | nil => simp
  | cons entry entries ih =>
    obtain ⟨key, e⟩ := entry
    rw [List.map_cons, List.lookup_cons, List.lookup_cons, List.lookup_cons, ih]
    by_cases hkey : key = name
    · subst hkey
      by_cases hother : other = key
      · simp [hother]
      · simp [hother, beq_eq_false_iff_ne.mpr hother]
    · have hname : (name == key) = false := beq_eq_false_iff_ne.mpr (Ne.symm hkey)
      by_cases hother : other = name
      · simp [hother, hkey, hname]
      · simp [hother, hkey]

/-- The entries of a directory after one of them was put under a name. -/
theorem lookup_replaceIn (name other : String) (new : Entry) (entries : List (String × Entry)) :
    (replaceIn name new entries).lookup other =
      if other = name then some new else entries.lookup other := by
  rw [replaceIn]
  split
  next h =>
    obtain ⟨old, hold⟩ := Option.isSome_iff_exists.mp h
    rw [lookup_map_replace, hold, Option.map_some]
  next h =>
    rw [List.lookup_append, List.lookup_cons]
    by_cases hother : other = name
    · simp [hother, Option.not_isSome_iff_eq_none.mp h]
    · simp [hother, beq_eq_false_iff_ne.mpr hother]

theorem at?_cons (e : Entry) (name : String) (rest : Location) :
    e.at? (name :: rest) = (e.child? name).bind (·.at? rest) := by
  rw [at?]
  cases e.child? name <;> rfl

theorem at?_append (e : Entry) (place rest : Location) :
    e.at? (place ++ rest) = (e.at? place).bind (·.at? rest) := by
  induction place generalizing e with
  | nil => rfl
  | cons first place ih =>
    rw [List.cons_append, at?_cons, at?_cons, Option.bind_assoc]
    exact Option.bind_congr fun c _ => ih c

theorem at?_concat (e : Entry) (place : Location) (name : String) :
    e.at? (place ++ [name]) = (e.at? place).bind (·.child? name) := by
  rw [at?_append]
  refine Option.bind_congr fun c _ => ?_
  rw [at?_cons]
  cases c.child? name <;> rfl

/-- What stands at a place: nothing, a directory, or a file with its bytes. -/
def look (e : Entry) (place : Location) : Option (Option ByteArray) :=
  (e.at? place).map bytes?

theorem look_cons (e : Entry) (name : String) (rest : Location) :
    e.look (name :: rest) = (e.child? name).bind (·.look rest) := by
  rw [look, at?_cons]
  cases e.child? name <;> rfl

/-- Writing a file that is there changes what stands at its place and nothing else. -/
theorem look_put {e : Entry} {place : Location} {old : ByteArray}
    (h : e.look place = some (some old)) (new : ByteArray) (other : Location) :
    (e.put place (.file new)).look other =
      if other = place then some (some new) else e.look other := by
  induction place generalizing e other with
  | nil =>
    -- The tree itself is the file, so nothing stands below it before or after.
    cases e with
    | directory entries => cases h
    | file bytes =>
      rw [put]
      cases other with
      | nil => rfl
      | cons name rest => rfl
  | cons name rest ih =>
    rw [look_cons] at h
    obtain ⟨c, hc, hlook⟩ := Option.bind_eq_some_iff.mp h
    cases e with
    | file bytes => cases hc
    | directory entries =>
      change entries.lookup name = some c at hc
      rw [put, hc, Option.getD_some]
      cases other with
      | nil => rfl
      | cons name' rest' =>
        rw [look_cons, look_cons, child?, child?, lookup_replaceIn]
        by_cases hname : name' = name
        · simp [hname, hc, ih hlook]
        · simp [hname]

end Entry

namespace FileSystem

/-! ### Places -/

/-- What stands at a place: nothing, a directory, or a file with its bytes. -/
def look (fs : FileSystem) (place : Location) : Option (Option ByteArray) :=
  fs.root.look place

/-- Two paths do not name one place. -/
def Apart (fs : FileSystem) (path path' : String) : Prop :=
  ∀ place, fs.resolve path = .ok place → fs.resolve path' ≠ .ok place

/-- The same files and directories stand at the same places, whatever the bytes of the files, and
the working directory is the same. -/
structure Aligned (fs fs' : FileSystem) : Prop where
  here : fs.here = fs'.here
  kind : ∀ place, (fs.look place).map Option.isSome = (fs'.look place).map Option.isSome

theorem step_eq (fs : FileSystem) (place : Location) (segment : String) :
    fs.step place segment =
      match (fs.look place).map Option.isSome with
      | none => .error .notFound
      | some true => .error .notADirectory
      | some false =>
        match Path.Component.ofSegment? segment with
        | some (.name name) =>
          if ((fs.look (place ++ [name])).map Option.isSome).isSome then .ok (place ++ [name])
          else .error .notFound
        | some .parent => .ok place.dropLast
        | _ => .ok place := by
  rw [step, look, Entry.look]
  rcases hplace : fs.root.at? place with _ | bytes | entries
  · rfl
  · rfl
  · have hnext (name : String) :
        ((fs.look (place ++ [name])).map Option.isSome).isSome = (entries.lookup name).isSome := by
      rw [look, Entry.look, Entry.at?_concat, hplace, Option.bind_some, Entry.child?]
      simp
    simp only [hnext]
    rfl

namespace Aligned

variable {fs fs' fs'' : FileSystem}

theorem refl (fs : FileSystem) : fs.Aligned fs :=
  ⟨rfl, fun _ => rfl⟩

theorem trans (h : fs.Aligned fs') (h' : fs'.Aligned fs'') : fs.Aligned fs'' :=
  ⟨h.here.trans h'.here, fun place => (h.kind place).trans (h'.kind place)⟩

theorem step_eq (h : fs.Aligned fs') : fs.step = fs'.step := by
  funext place segment
  rw [FileSystem.step_eq, FileSystem.step_eq, h.kind]
  simp only [h.kind]

/-- Paths name the same places in aligned file systems. -/
theorem resolve_eq (h : fs.Aligned fs') : fs.resolve = fs'.resolve := by
  funext path
  rw [resolve, resolve, h.here, h.step_eq]

end Aligned

/-! ### Reading -/

variable {fs fs' : FileSystem} {path text : String}

theorem read_of_error {problem : FileProblem} (h : fs.resolve path = .error problem) :
    fs.read path = .error problem := by
  rw [read, entry, h]
  rfl

theorem read_of_resolve {place : Location} (h : fs.resolve path = .ok place) :
    fs.read path =
      match fs.look place with
      | none => .error .notFound
      | some none => .error .isADirectory
      | some (some bytes) => .ok bytes := by
  simp only [read, entry, h, look, Entry.look, bind, Except.bind]
  rcases fs.root.at? place with _ | bytes | entries <;> rfl

/-- What is read through a path depends on the place that it names and on what stands there. -/
theorem readText_congr (hresolve : fs.resolve path = fs'.resolve path)
    (hlook : ∀ place, fs.resolve path = .ok place → fs.look place = fs'.look place) :
    fs.readText path = fs'.readText path := by
  have hread : fs.read path = fs'.read path := by
    cases hplace : fs.resolve path with
    | error problem => rw [read_of_error hplace, read_of_error (hresolve ▸ hplace)]
    | ok place =>
      rw [read_of_resolve hplace, read_of_resolve (hresolve ▸ hplace), hlook place hplace]
  rw [readText, readText, hread]

/-- What is read is the text of the bytes that stand at the place. -/
theorem readText_eq_ok_iff :
    fs.readText path = .ok text ↔ ∃ place bytes, fs.resolve path = .ok place ∧
      fs.look place = some (some bytes) ∧ String.fromUTF8? bytes = some text := by
  rw [readText]
  cases hplace : fs.resolve path with
  | error problem =>
    rw [read_of_error hplace]
    simp [bind, Except.bind]
  | ok place =>
    rw [read_of_resolve hplace]
    rcases hlook : fs.look place with _ | _ | bytes
    · simp [bind, Except.bind, hlook]
    · simp [bind, Except.bind, hlook]
    · cases htext : String.fromUTF8? bytes <;> simp [bind, Except.bind, hlook, htext]

/-- The text is read where a file with its bytes stands. -/
theorem readText_of_look {place : Location} (hplace : fs.resolve path = .ok place)
    (hlook : fs.look place = some (some text.toUTF8)) : fs.readText path = .ok text :=
  readText_eq_ok_iff.mpr ⟨place, text.toUTF8, hplace, hlook, fromUTF8?_toUTF8 text⟩

/-! ### Writing -/

/-- Writing a file that can be read changes what stands at its place and nothing else. -/
theorem look_write {place : Location} {old : String} (hold : fs.readText path = .ok old)
    (hplace : fs.resolve path = .ok place) (text : String) (other : Location) :
    (fs.write path text).look other =
      if other = place then some (some text.toUTF8) else fs.look other := by
  obtain ⟨place', bytes, hplace', hlook, -⟩ := readText_eq_ok_iff.mp hold
  cases hplace.symm.trans hplace'
  rw [write, hplace]
  exact Entry.look_put hlook text.toUTF8 other

theorem aligned_write {old : String} (hold : fs.readText path = .ok old) (text : String) :
    fs.Aligned (fs.write path text) := by
  obtain ⟨place, bytes, hplace, hlook, -⟩ := readText_eq_ok_iff.mp hold
  constructor
  · rw [write, hplace]
  · intro other
    rw [look_write hold hplace]
    split
    next h => rw [h, hlook]; rfl
    next => rfl

end FileSystem

end ViewLint
