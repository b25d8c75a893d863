import ViewLint.Proofs.Files.Components
import ViewLint.Proofs.Files.Write

/-!
# The places that paths lead to

A path is followed segment by segment, and a segment that names nothing leaves the place as it is,
if a directory stands there. So the file with a name in the directory of a path is found by
following the components of the path. Without links, where components lead is determined by their
texts alone, whether or not anything stands there.

## Main definitions

* `FileSystem.enter`: one step along a component.

## Main results

* `FileSystem.resolve_join`: the place of a name in the directory of a path.
* `FileSystem.foldlM_enter_of_resolve`: the components of a path lead to its place.
* `FileSystem.eq_foldl_move`: where components lead, if they lead anywhere.
* `FileSystem.foldlM_enter_of_at?`: names lead to a place at which something stands.
-/

namespace ViewLint

open ViewLint.Path (Component components segments)

/-- The text of a component that is a name. -/
def Path.Component.name? : Component → Option String
  | .name text => some text
  | _ => none

namespace FileSystem

variable {fs : FileSystem} {place place' : Location}

/-- One step along a component. The root is reached from anywhere, and the current directory
without a step. -/
def enter (fs : FileSystem) (place : Location) : Component → Except FileProblem Location
  | .root => .ok []
  | .current => .ok place
  | .parent => fs.step place ".."
  | .name text => fs.step place text

/-! ### Steps -/

theorem bind_eq_ok {ε α β : Type} {x : Except ε α} {f : α → Except ε β} {b : β} :
    x >>= f = .ok b ↔ ∃ a, x = .ok a ∧ f a = .ok b := by
  cases x with
  | error e => simp [bind, Except.bind]
  | ok a => simp [bind, Except.bind]

theorem step_eq_enter {segment : String} {c : Component}
    (h : Component.ofSegment? segment = some c) (place : Location) :
    fs.step place segment = fs.enter place c := by
  rw [Component.ofSegment?] at h
  split at h
  next => cases h
  next =>
    split at h
    next hparent =>
      cases h
      rw [hparent]
      rfl
    next =>
      cases h
      rfl

/-- A segment that names nothing leads nowhere else. -/
theorem eq_of_step_idle {segment : String} (h : Component.ofSegment? segment = none)
    (hstep : fs.step place segment = .ok place') : place' = place := by
  rw [step, h] at hstep
  split at hstep
  next => cases hstep
  next => cases hstep
  next =>
    cases hstep
    rfl

/-- Before another step, a segment that names nothing can be left out. -/
theorem step_idle_bind {segment : String} (h : Component.ofSegment? segment = none)
    (place : Location) (next : String) :
    (fs.step place segment >>= (fs.step · next)) = fs.step place next := by
  rcases hplace : fs.root.at? place with _ | bytes | entries
  · simp only [step, hplace]
    rfl
  · simp only [step, hplace]
    rfl
  · have hidle : fs.step place segment = .ok place := by simp only [step, hplace, h]
    rw [hidle]
    rfl

theorem foldlM_step_idle {segment : String} (h : Component.ofSegment? segment = none)
    (place : Location) {texts : List String} (htexts : texts ≠ []) :
    (segment :: texts).foldlM fs.step place = texts.foldlM fs.step place := by
  obtain ⟨next, later, rfl⟩ := List.exists_cons_of_ne_nil htexts
  rw [List.foldlM_cons, List.foldlM_cons, ← step_idle_bind h place next, bind_assoc]
  rfl

/-- The steps along segments up to a name are those along their components. -/
theorem foldlM_step_concat (place : Location) (texts : List String) (name : String) :
    (texts ++ [name]).foldlM fs.step place =
      (texts.filterMap Component.ofSegment?).foldlM fs.enter place >>= (fs.step · name) := by
  induction texts generalizing place with
  | nil =>
    rw [List.nil_append, List.foldlM_cons]
    exact bind_pure (fs.step place name)
  | cons text texts ih =>
    rw [List.cons_append]
    cases htext : Component.ofSegment? text with
    | none => rw [foldlM_step_idle htext place (by simp), ih, List.filterMap_cons_none htext]
    | some c =>
      rw [List.filterMap_cons_some htext, List.foldlM_cons, List.foldlM_cons,
        step_eq_enter htext, bind_assoc]
      exact bind_congr fun p => ih p

/-- Steps along segments that lead to a place also lead there along their components. -/
theorem foldlM_enter_of_foldlM_step {texts : List String}
    (h : texts.foldlM fs.step place = .ok place') :
    (texts.filterMap Component.ofSegment?).foldlM fs.enter place = .ok place' := by
  induction texts generalizing place with
  | nil => exact h
  | cons text texts ih =>
    rw [List.foldlM_cons] at h
    obtain ⟨next, hnext, h⟩ := bind_eq_ok.mp h
    cases htext : Component.ofSegment? text with
    | none =>
      rw [List.filterMap_cons_none htext]
      exact ih (eq_of_step_idle htext hnext ▸ h)
    | some c =>
      rw [List.filterMap_cons_some htext, List.foldlM_cons, ← step_eq_enter htext, hnext]
      exact ih h

/-! ### Paths -/

theorem resolve_of_segments {path first : String} {rest : List String} (hpath : path ≠ "")
    (h : segments path = first :: rest) :
    fs.resolve path = (first :: rest).foldlM fs.step (if first = "" then [] else fs.here) := by
  rw [resolve, if_neg hpath, h]
  simp only [(Path.isAbsolute_iff hpath h).1]

/-- An empty first segment leads to the root, and a dot leads nowhere. -/
theorem foldlM_enter_first (first : String) (rest : List String) :
    ((first :: rest).filterMap Component.ofSegment?).foldlM fs.enter
        (if first = "" then [] else fs.here) =
      (Component.ofFirst first :: rest.filterMap Component.ofSegment?).foldlM fs.enter
        fs.here := by
  by_cases hempty : first = ""
  · subst hempty
    rfl
  by_cases hdot : first = "."
  · subst hdot
    rfl
  rw [List.filterMap_cons_some (Path.ofSegment?_eq_ofFirst hempty hdot), if_neg hempty]

/-- The place of a name in the directory of a path. -/
theorem resolve_join (fs : FileSystem) (base : String) {name : String} (hname : Path.IsName name) :
    fs.resolve (Path.join base name) =
      (components base).foldlM fs.enter fs.here >>= (fs.step · name) := by
  have hsegments : segments name = [name] := Path.segments_of_not_mem hname.slash_not_mem
  by_cases hbase : base = ""
  · rw [hbase, Path.join, hname.isAbsolute, if_neg Bool.false_ne_true, if_pos (.inl rfl),
      String.empty_append, resolve_of_segments hname.ne_empty hsegments, if_neg hname.ne_empty]
    exact bind_pure (fs.step fs.here name)
  · obtain ⟨first, rest, hjoin, hfront⟩ := Path.segments_join hbase hname.isAbsolute
    rw [hsegments] at hjoin
    rw [resolve_of_segments (Path.ne_empty_of_segments hjoin (by simp)) hjoin, hfront,
      ← foldlM_enter_first, ← foldlM_step_concat]
    rfl

/-- The components of a path lead to the place that it names. -/
theorem foldlM_enter_of_resolve {path : String} (h : fs.resolve path = .ok place) :
    (components path).foldlM fs.enter fs.here = .ok place := by
  have hpath : path ≠ "" := by
    rintro rfl
    cases h
  obtain ⟨first, rest, hsegments⟩ := Path.exists_segments path
  rw [resolve_of_segments hpath hsegments] at h
  rw [Path.components_of_segments hpath hsegments, ← foldlM_enter_first]
  exact foldlM_enter_of_foldlM_step h

/-! ### Files -/

theorem isFile_iff {path : String} : fs.isFile path = true ↔ ∃ place bytes,
    fs.resolve path = .ok place ∧ fs.root.at? place = some (.file bytes) := by
  simp only [isFile, entry, bind, Except.bind]
  cases fs.resolve path with
  | error problem => simp [Except.toOption]
  | ok place =>
    rcases hplace : fs.root.at? place with _ | bytes | entries <;>
      simp [Except.toOption, Entry.isFile, hplace]

/-- Around a directory stands a directory. -/
theorem exists_directory_dropLast {e : Entry} {entries : List (String × Entry)}
    (h : e.at? place = some (.directory entries)) :
    ∃ entries', e.at? place.dropLast = some (.directory entries') := by
  rcases List.eq_nil_or_concat place with rfl | ⟨front, name, rfl⟩
  · exact ⟨entries, h⟩
  · rw [List.concat_eq_append, Entry.at?_concat] at h
    obtain ⟨c, hc, hchild⟩ := Option.bind_eq_some_iff.mp h
    rw [List.concat_eq_append, List.dropLast_concat, hc]
    cases c with
    | file bytes => cases hchild
    | directory entries' => exact ⟨entries', rfl⟩

/-- The last segment on the way to a file is a name: along any other, a directory is reached. -/
theorem ofSegment?_of_file (texts : List String) {last : String} {bytes : ByteArray}
    (h : (texts ++ [last]).foldlM fs.step place = .ok place')
    (hfile : fs.root.at? place' = some (.file bytes)) :
    ∃ name, Component.ofSegment? last = some (.name name) := by
  rw [List.foldlM_append] at h
  obtain ⟨before, -, h⟩ := bind_eq_ok.mp h
  rw [List.foldlM_cons] at h
  obtain ⟨after, hstep, ⟨⟩⟩ := bind_eq_ok.mp h
  rw [step] at hstep
  split at hstep
  next => cases hstep
  next => cases hstep
  next entries hbefore =>
    split at hstep
    next name hname => exact ⟨name, hname⟩
    next =>
      cases hstep
      obtain ⟨entries', h⟩ := exists_directory_dropLast hbefore
      cases h.symm.trans hfile
    next =>
      cases hstep
      cases hbefore.symm.trans hfile

/-- The last component of the path of a file is its name. -/
theorem components_of_isFile {path : String} (h : fs.isFile path = true) :
    ∃ front name, components path = front ++ [.name name] := by
  obtain ⟨place, bytes, hplace, hfile⟩ := isFile_iff.mp h
  have hpath : path ≠ "" := by
    rintro rfl
    cases hplace
  obtain ⟨first, rest, hsegments⟩ := Path.exists_segments path
  rw [resolve_of_segments hpath hsegments] at hplace
  rw [Path.components_of_segments hpath hsegments]
  rcases List.eq_nil_or_concat rest with rfl | ⟨front, last, rfl⟩
  · obtain ⟨name, hname⟩ := ofSegment?_of_file [] hplace hfile
    have hempty : first ≠ "" := by
      rintro rfl
      cases hname
    have hdot : first ≠ "." := by
      rintro rfl
      cases hname
    rw [Path.ofSegment?_eq_ofFirst hempty hdot] at hname
    exact ⟨[], name, by rw [Option.some.inj hname]; rfl⟩
  · rw [List.concat_eq_append] at hplace ⊢
    obtain ⟨name, hname⟩ := ofSegment?_of_file (first :: front) hplace hfile
    refine ⟨Component.ofFirst first :: front.filterMap Component.ofSegment?, name, ?_⟩
    rw [List.filterMap_append, List.filterMap_cons_some hname]
    rfl

/-! ### Where components lead -/

theorem step_name {text : String} (h : Path.IsName text) :
    fs.step place text = .ok place' ↔
      place' = place ++ [text] ∧ (fs.root.at? (place ++ [text])).isSome = true := by
  rw [step, Entry.at?_concat]
  rcases fs.root.at? place with _ | bytes | entries
  · simp
  · simp [Entry.child?]
  · rw [Option.bind_some, Entry.child?]
    by_cases hentry : (entries.lookup text).isSome = true
    · simp [h.ofSegment?, hentry, eq_comm]
    · simp [h.ofSegment?, hentry]

theorem eq_move {c : Component} (hname : ∀ text, c = .name text → Path.IsName text)
    (h : fs.enter place c = .ok place') : place' = c.move place := by
  cases c with
  | root => exact (Except.ok.inj h).symm
  | current => exact (Except.ok.inj h).symm
  | parent =>
    rw [enter, step] at h
    split at h
    next => cases h
    next => cases h
    next => exact (Except.ok.inj h).symm
  | name text => exact ((step_name (hname text rfl)).mp h).1

/-- Components that lead somewhere lead to the place that they spell out. -/
theorem eq_foldl_move {cs : List Component} (hname : ∀ text, .name text ∈ cs → Path.IsName text)
    (h : cs.foldlM fs.enter place = .ok place') : place' = cs.foldl Component.move place := by
  induction cs generalizing place with
  | nil =>
    cases h
    rfl
  | cons c cs ih =>
    rw [List.foldlM_cons] at h
    obtain ⟨next, hnext, h⟩ := bind_eq_ok.mp h
    have hfirst : next = c.move place :=
      eq_move (fun text hc => hname text (hc ▸ List.mem_cons_self)) hnext
    rw [List.foldl_cons, ← hfirst]
    exact ih (fun text htext => hname text (List.mem_cons_of_mem c htext)) h

/-- Without a root and parents, components lead down along their names. -/
theorem foldl_move {cs : List Component} (hroot : .root ∉ cs) (hparent : .parent ∉ cs)
    (place : Location) :
    cs.foldl Component.move place = place ++ cs.filterMap Component.name? := by
  induction cs generalizing place with
  | nil => exact (List.append_nil place).symm
  | cons c cs ih =>
    rw [List.mem_cons, not_or] at hroot hparent
    rw [List.foldl_cons, ih hroot.2 hparent.2]
    cases c with
    | root => exact absurd rfl hroot.1
    | parent => exact absurd rfl hparent.1
    | current => rfl
    | name text => simp [Component.move, Component.name?]

theorem exists_prefix_filterMap {α β : Type} {f : α → Option β} {xs : List α} {ys : List β}
    (h : ys <+: xs.filterMap f) : ∃ part, part <+: xs ∧ part.filterMap f = ys := by
  induction xs generalizing ys with
  | nil => exact ⟨[], List.nil_prefix, (List.prefix_nil.mp h).symm⟩
  | cons x xs ih =>
    cases hx : f x with
    | none =>
      rw [List.filterMap_cons_none hx] at h
      obtain ⟨part, hpart, rfl⟩ := ih h
      exact ⟨x :: part, List.cons_prefix_cons.mpr ⟨rfl, hpart⟩, List.filterMap_cons_none hx⟩
    | some y =>
      rw [List.filterMap_cons_some hx] at h
      cases ys with
      | nil => exact ⟨[], List.nil_prefix, rfl⟩
      | cons z ys =>
        obtain ⟨rfl, hys⟩ := List.cons_prefix_cons.mp h
        obtain ⟨part, hpart, rfl⟩ := ih hys
        exact ⟨x :: part, List.cons_prefix_cons.mpr ⟨rfl, hpart⟩, List.filterMap_cons_some hx⟩

/-- A place on the way along names is reached along the first of them. -/
theorem exists_prefix_of_place {cs : List Component} (hroot : .root ∉ cs) (hparent : .parent ∉ cs)
    (h : place <+: place') (h' : place' <+: cs.foldl Component.move place) :
    ∃ part, part <+: cs ∧ part.foldl Component.move place = place' := by
  obtain ⟨names, rfl⟩ := h
  rw [foldl_move hroot hparent, List.prefix_append_right_inj] at h'
  obtain ⟨part, hpart, rfl⟩ := exists_prefix_filterMap h'
  refine ⟨part, hpart, foldl_move (fun hmem => ?_) (fun hmem => ?_) place⟩
  · exact hroot (hpart.subset hmem)
  · exact hparent (hpart.subset hmem)

/-- Names lead to a place at which something stands. -/
theorem foldlM_enter_of_at? {cs : List Component} (hroot : .root ∉ cs) (hparent : .parent ∉ cs)
    (hname : ∀ text, .name text ∈ cs → Path.IsName text)
    (h : (fs.root.at? (cs.foldl Component.move place)).isSome = true) :
    cs.foldlM fs.enter place = .ok (cs.foldl Component.move place) := by
  induction cs generalizing place with
  | nil => rfl
  | cons c cs ih =>
    rw [List.mem_cons, not_or] at hroot hparent
    have hnext : fs.enter place c = .ok (c.move place) := by
      cases c with
      | root => rfl
      | current => rfl
      | parent => exact absurd rfl hparent.1
      | name text =>
        refine (step_name (hname text List.mem_cons_self)).mpr ⟨rfl, ?_⟩
        rw [List.foldl_cons, foldl_move hroot.2 hparent.2, Entry.at?_append] at h
        exact Option.isSome_of_isSome_bind h
    rw [List.foldlM_cons, hnext]
    exact ih hroot.2 hparent.2 (fun text htext => hname text (List.mem_cons_of_mem c htext)) h

/-- The text of the file with a name is read where the components of its directory lead. -/
theorem readText_join_eq_ok_iff {dir name text : String} (hname : Path.IsName name) :
    fs.readText (Path.join dir name) = .ok text ↔ ∃ place bytes,
      (components dir).foldlM fs.enter fs.here = .ok place ∧
        fs.look (place ++ [name]) = some (some bytes) ∧ String.fromUTF8? bytes = some text := by
  rw [readText_eq_ok_iff, fs.resolve_join dir hname]
  constructor
  · rintro ⟨place', bytes, hplace, hlook, htext⟩
    obtain ⟨place, hdir, hstep⟩ := bind_eq_ok.mp hplace
    rw [((step_name hname).mp hstep).1] at hlook
    exact ⟨place, bytes, hdir, hlook, htext⟩
  · rintro ⟨place, bytes, hdir, hlook, htext⟩
    obtain ⟨e, he, -⟩ := Option.map_eq_some_iff.mp hlook
    refine ⟨place ++ [name], bytes, bind_eq_ok.mpr ⟨place, hdir, ?_⟩, hlook, htext⟩
    exact (step_name hname).mpr ⟨rfl, Option.isSome_of_eq_some he⟩

/-- Names after a path lead on from its place. -/
theorem resolve_foldl_join {path : String} {names : Location} (h : fs.resolve path = .ok place)
    (hnames : ∀ name ∈ names, Path.IsName name)
    (hat : (fs.root.at? (place ++ names)).isSome = true) :
    fs.resolve (names.foldl Path.join path) = .ok (place ++ names) := by
  rcases List.eq_nil_or_concat names with rfl | ⟨front, last, rfl⟩
  · rw [List.append_nil]
    exact h
  · rw [List.concat_eq_append] at hnames hat ⊢
    rw [List.forall_mem_append, List.forall_mem_singleton] at hnames
    have hmoved : (front.map Component.name).foldl Component.move place = place ++ front := by
      rw [foldl_move (by simp) (by simp), List.filterMap_map]
      simp [Function.comp_def, Component.name?]
    have hfront : (components (front.foldl Path.join path)).foldlM fs.enter fs.here =
        .ok (place ++ front) := by
      rw [Path.components_foldl_join path hnames.1, List.foldlM_append,
        foldlM_enter_of_resolve h, ← hmoved]
      refine foldlM_enter_of_at? (by simp) (by simp) ?_ ?_
      · intro text htext
        obtain ⟨name, hname, heq⟩ := List.mem_map.mp htext
        exact Component.name.inj heq ▸ hnames.1 name hname
      · rw [hmoved]
        rw [← List.append_assoc, Entry.at?_append] at hat
        exact Option.isSome_of_isSome_bind hat
    rw [List.foldl_append, List.foldl_cons, List.foldl_nil, resolve_join fs _ hnames.2, hfront]
    rw [← List.append_assoc] at hat ⊢
    exact (step_name hnames.2).mpr ⟨rfl, hat⟩

end FileSystem

end ViewLint
