import ViewLint.Files.Path

/-!
# The components of paths

The first segment of a path gives a component of its own, and of the others those that name
something. So the root and the current directory stand only in front. Joining a name to a path adds
a component, and the parent of a path has one component less.

## Main definitions

* `Path.IsName`: texts that can stand in a directory.
* `Path.opening`: the first component.
* `Path.bare`: the components without the current directory.

## Main results

* `Path.components_of_segments`: the components of a path from its segments.
* `Path.components_join`: the components of a path with a name joined to it.
* `Path.opening_join`: what a path starts with after something was joined to it.
* `Path.parent?_eq_some`, `Path.parent?_eq_none`: the components of a path and of its parent.
-/

namespace ViewLint.Path

/-! ### Segments -/

theorem splitSlashes_ne_nil (cs : List Char) : splitSlashes cs ≠ [] := by
  fun_cases splitSlashes cs <;> exact List.cons_ne_nil _ _

theorem splitSlashes_append (cs ds : List Char) :
    splitSlashes (cs ++ '/' :: ds) = splitSlashes cs ++ splitSlashes ds := by
  induction cs with
  | nil => rfl
  | cons c cs ih =>
    rw [List.cons_append, splitSlashes, splitSlashes, ih]
    obtain ⟨segment, rest, hcs⟩ := List.exists_cons_of_ne_nil (splitSlashes_ne_nil cs)
    rw [hcs]
    split <;> rfl

theorem splitSlashes_of_not_mem {cs : List Char} (h : '/' ∉ cs) : splitSlashes cs = [cs] := by
  induction cs with
  | nil => rfl
  | cons c cs ih =>
    rw [List.mem_cons, not_or] at h
    rw [splitSlashes, if_neg (by simpa using Ne.symm h.1), ih h.2]

theorem slash_not_mem_of_mem_splitSlashes {cs segment : List Char}
    (h : segment ∈ splitSlashes cs) : '/' ∉ segment := by
  induction cs generalizing segment with
  | nil =>
    rw [List.mem_singleton.mp h]
    exact List.not_mem_nil
  | cons c cs ih =>
    obtain ⟨first, rest, hcs⟩ := List.exists_cons_of_ne_nil (splitSlashes_ne_nil cs)
    rw [hcs] at ih
    rw [splitSlashes, hcs] at h
    split at h
    next =>
      rcases List.mem_cons.mp h with rfl | h
      · exact List.not_mem_nil
      · exact ih h
    next hc =>
      rcases List.mem_cons.mp h with rfl | h
      · rw [List.mem_cons, not_or]
        exact ⟨fun h => hc (beq_iff_eq.mpr h.symm), ih List.mem_cons_self⟩
      · exact ih (List.mem_cons_of_mem first h)

theorem exists_segments (path : String) : ∃ first rest, segments path = first :: rest := by
  obtain ⟨first, rest, h⟩ := List.exists_cons_of_ne_nil (splitSlashes_ne_nil path.toList)
  exact ⟨_, _, by rw [segments, h]; rfl⟩

theorem segments_append (a b : String) : segments (a ++ "/" ++ b) = segments a ++ segments b := by
  rw [segments, String.append_assoc, String.toList_append, String.toList_append]
  exact (congrArg _ (splitSlashes_append a.toList b.toList)).trans List.map_append

theorem segments_of_not_mem {text : String} (h : '/' ∉ text.toList) : segments text = [text] := by
  rw [segments, splitSlashes_of_not_mem h, List.map_singleton, String.ofList_toList]

theorem slash_not_mem_of_mem_segments {path segment : String} (h : segment ∈ segments path) :
    '/' ∉ segment.toList := by
  obtain ⟨cs, hcs, rfl⟩ := List.mem_map.mp h
  rw [String.toList_ofList]
  exact slash_not_mem_of_mem_splitSlashes hcs

theorem segments_ofSegments {texts : List String} (hne : texts ≠ [])
    (h : ∀ text ∈ texts, '/' ∉ text.toList) : segments (ofSegments texts) = texts := by
  induction texts with
  | nil => exact absurd rfl hne
  | cons first rest ih =>
    rw [List.forall_mem_cons] at h
    cases rest with
    | nil => exact segments_of_not_mem h.1
    | cons second rest =>
      rw [ofSegments, String.intercalate_cons_cons, segments_append, segments_of_not_mem h.1]
      exact congrArg (first :: ·) (ih (List.cons_ne_nil second rest) h.2)

theorem ne_empty_of_segments {path first : String} {rest : List String}
    (h : segments path = first :: rest) (hrest : rest ≠ []) : path ≠ "" := by
  rintro rfl
  exact hrest (List.cons.inj h).2.symm

/-- A path that is not empty is absolute if its first segment is empty, and then it has more. -/
theorem isAbsolute_iff {path first : String} {rest : List String} (hpath : path ≠ "")
    (h : segments path = first :: rest) :
    (isAbsolute path = true ↔ first = "") ∧ (first = "" → rest ≠ []) := by
  rw [segments] at h
  rw [isAbsolute]
  cases hcs : path.toList with
  | nil => exact absurd (String.toList_inj.mp hcs) hpath
  | cons c cs =>
    obtain ⟨segment, segments, hrest⟩ := List.exists_cons_of_ne_nil (splitSlashes_ne_nil cs)
    rw [hcs, splitSlashes, hrest] at h
    by_cases hc : c = '/'
    · rw [if_pos (beq_iff_eq.mpr hc)] at h
      obtain ⟨rfl, rfl⟩ := List.cons.inj h
      simp [hc]
    · rw [if_neg fun h => hc (beq_iff_eq.mp h)] at h
      obtain ⟨rfl, rfl⟩ := List.cons.inj h
      simp [hc]

/-! ### Components -/

/-- The component that the first segment of a path gives, unless the path is empty. -/
def Component.ofFirst (first : String) : Component :=
  if first = "" then .root
  else if first = "." then .current
  else if first = ".." then .parent
  else .name first

theorem ofSegment?_ne_root (segment : String) : Component.ofSegment? segment ≠ some .root := by
  fun_cases Component.ofSegment? segment <;> simp

theorem ofSegment?_ne_current (segment : String) :
    Component.ofSegment? segment ≠ some .current := by
  fun_cases Component.ofSegment? segment <;> simp

theorem ofSegment?_eq_ofFirst {first : String} (hempty : first ≠ "") (hdot : first ≠ ".") :
    Component.ofSegment? first = some (Component.ofFirst first) := by
  rw [Component.ofSegment?, Component.ofFirst, if_neg (by simp [hempty, hdot]), if_neg hempty,
    if_neg hdot]
  split <;> rfl

theorem ofFirst_eq_root_iff {first : String} : Component.ofFirst first = .root ↔ first = "" := by
  fun_cases Component.ofFirst first <;> simp_all

theorem components_of_segments {path first : String} {rest : List String} (hpath : path ≠ "")
    (h : segments path = first :: rest) :
    components path = Component.ofFirst first :: rest.filterMap Component.ofSegment? := by
  have hrest := (isAbsolute_iff hpath h).2
  rw [components, h]
  by_cases hempty : first = ""
  · obtain ⟨second, rest, rfl⟩ := List.exists_cons_of_ne_nil (hrest hempty)
    simp [hempty, Component.ofFirst]
  by_cases hdot : first = "."
  · cases rest <;> simp [hdot, Component.ofFirst]
  · cases rest <;> simp [hempty, hdot, ofSegment?_eq_ofFirst hempty hdot]

theorem length_components_le (path : String) :
    (components path).length ≤ (segments path).length := by
  by_cases hpath : path = ""
  · subst hpath
    decide
  · obtain ⟨first, rest, h⟩ := exists_segments path
    rw [components_of_segments hpath h, h, List.length_cons, List.length_cons]
    exact Nat.succ_le_succ (List.length_filterMap_le _ rest)

/-- The root and the current directory are named in front only. -/
theorem not_mem_of_components {path : String} {c : Component} {cs : List Component}
    (h : components path = c :: cs) : Component.root ∉ cs ∧ Component.current ∉ cs := by
  have hpath : path ≠ "" := by
    rintro rfl
    cases h
  obtain ⟨first, rest, hsegments⟩ := exists_segments path
  rw [components_of_segments hpath hsegments] at h
  obtain ⟨-, rfl⟩ := List.cons.inj h
  constructor
  · intro hmem
    obtain ⟨segment, -, hsegment⟩ := List.mem_filterMap.mp hmem
    exact ofSegment?_ne_root segment hsegment
  · intro hmem
    obtain ⟨segment, -, hsegment⟩ := List.mem_filterMap.mp hmem
    exact ofSegment?_ne_current segment hsegment

/-- The components of a path without the current directory: those of the path without its dots and
repeated slashes. -/
def bare (path : String) : List Component :=
  (components path).filter (· ≠ .current)

/-- The first component of a path. -/
def opening (path : String) : Option Component :=
  (components path).head?

theorem opening_of_root_mem {path : String} (h : .root ∈ components path) :
    opening path = some .root := by
  cases hcs : components path with
  | nil =>
    rw [hcs] at h
    cases h
  | cons c cs =>
    rw [hcs] at h
    rcases List.mem_cons.mp h with rfl | hmem
    · rw [opening, hcs, List.head?_cons]
    · exact absurd hmem (not_mem_of_components hcs).1

theorem isAbsolute_iff_opening {path : String} :
    isAbsolute path = true ↔ opening path = some .root := by
  by_cases hpath : path = ""
  · subst hpath
    decide
  · obtain ⟨first, rest, h⟩ := exists_segments path
    rw [(isAbsolute_iff hpath h).1, opening, components_of_segments hpath h, List.head?_cons,
      Option.some_inj, ofFirst_eq_root_iff]

/-- A dot counts in front of a path only. -/
theorem components_eq_or (path : String) :
    components path = bare path ∨ components path = .current :: bare path := by
  rw [bare]
  cases hcs : components path with
  | nil => exact .inl rfl
  | cons c cs =>
    have hkeep : cs.filter (· ≠ .current) = cs := by
      refine List.filter_eq_self.mpr fun d hd => decide_eq_true fun h => ?_
      exact (not_mem_of_components hcs).2 (h ▸ hd)
    by_cases hc : c = .current
    · subst hc
      exact .inr (congrArg _ hkeep.symm)
    · exact .inl (by rw [List.filter_cons_of_pos (by simpa using hc), hkeep])

/-! ### Joining -/

/-- A text that names an entry of a directory. -/
structure IsName (text : String) : Prop where
  ne_empty : text ≠ ""
  ne_current : text ≠ "."
  ne_parent : text ≠ ".."
  slash_not_mem : '/' ∉ text.toList

instance (text : String) : Decidable (IsName text) :=
  decidable_of_iff (text ≠ "" ∧ text ≠ "." ∧ text ≠ ".." ∧ '/' ∉ text.toList)
    ⟨fun ⟨hempty, hdot, hdots, hslash⟩ => ⟨hempty, hdot, hdots, hslash⟩,
      fun h => ⟨h.ne_empty, h.ne_current, h.ne_parent, h.slash_not_mem⟩⟩

theorem IsName.ofSegment? {text : String} (h : IsName text) :
    Component.ofSegment? text = some (.name text) := by
  rw [Component.ofSegment?, if_neg (by simp [h.ne_empty, h.ne_current]), if_neg h.ne_parent]

theorem IsName.isAbsolute {text : String} (h : IsName text) : isAbsolute text = false := by
  rw [Path.isAbsolute]
  cases hcs : text.toList with
  | nil => rfl
  | cons c cs =>
    have hc : c ≠ '/' := by
      rintro rfl
      exact h.slash_not_mem (hcs ▸ List.mem_cons_self)
    simpa using hc

theorem isName_of_ofSegment? {segment text : String} (hslash : '/' ∉ segment.toList)
    (h : Component.ofSegment? segment = some (.name text)) : IsName text := by
  rw [Component.ofSegment?] at h
  split at h
  next => cases h
  next hidle =>
    rw [not_or] at hidle
    split at h
    next => cases h
    next hparent =>
      cases h
      exact ⟨hidle.1, hidle.2, hparent, hslash⟩

theorem isName_of_mem_components {path text : String} (h : .name text ∈ components path) :
    IsName text := by
  have hpath : path ≠ "" := by
    rintro rfl
    exact absurd h List.not_mem_nil
  obtain ⟨first, rest, hsegments⟩ := exists_segments path
  have hslash {segment : String} (hmem : segment ∈ first :: rest) : '/' ∉ segment.toList :=
    slash_not_mem_of_mem_segments (hsegments ▸ hmem)
  rw [components_of_segments hpath hsegments] at h
  rcases List.mem_cons.mp h with hfirst | hrest
  · have hempty : first ≠ "" := by
      rintro rfl
      cases hfirst
    have hdot : first ≠ "." := by
      rintro rfl
      cases hfirst
    refine isName_of_ofSegment? (hslash List.mem_cons_self) ?_
    rw [ofSegment?_eq_ofFirst hempty hdot, hfirst]
  · obtain ⟨segment, hsegment, hname⟩ := List.mem_filterMap.mp hrest
    exact isName_of_ofSegment? (hslash (List.mem_cons_of_mem first hsegment)) hname

/-- The segments of what is joined follow those of the path, of which an empty one at the end is
left out. -/
theorem segments_join {base text : String} (hbase : base ≠ "") (htext : isAbsolute text = false) :
    ∃ first rest, segments (join base text) = first :: (rest ++ segments text) ∧
      components base = Component.ofFirst first :: rest.filterMap Component.ofSegment? := by
  rw [join, htext, if_neg Bool.false_ne_true]
  by_cases hlast : base.toList.getLast? = some '/'
  · obtain ⟨cs, hcs⟩ := List.getLast?_eq_some_iff.mp hlast
    have hslash : base = String.ofList cs ++ "/" := by
      rw [← String.toList_inj, hcs, String.toList_append, String.toList_ofList]
      rfl
    obtain ⟨first, rest, hfront⟩ := exists_segments (String.ofList cs)
    have hsegments : segments base = first :: (rest ++ [""]) := by
      have h := segments_append (String.ofList cs) ""
      rwa [String.append_empty, ← hslash, hfront] at h
    refine ⟨first, rest, ?_, ?_⟩
    · rw [if_pos (.inr hlast), hslash, segments_append, hfront, List.cons_append]
    · rw [components_of_segments hbase hsegments, List.filterMap_append]
      exact congrArg _ (List.append_nil _)
  · obtain ⟨first, rest, hfront⟩ := exists_segments base
    refine ⟨first, rest, ?_, components_of_segments hbase hfront⟩
    rw [if_neg (by simp [hbase, hlast]), segments_append, hfront, List.cons_append]

theorem components_join (base : String) {name : String} (hname : IsName name) :
    components (join base name) = components base ++ [.name name] := by
  have hsegments : segments name = [name] := segments_of_not_mem hname.slash_not_mem
  have hlast : [name].filterMap Component.ofSegment? = [.name name] := by
    rw [List.filterMap_cons_some hname.ofSegment?, List.filterMap_nil]
  by_cases hbase : base = ""
  · have hfirst : Component.ofFirst name = .name name := by
      rw [Component.ofFirst, if_neg hname.ne_empty, if_neg hname.ne_current,
        if_neg hname.ne_parent]
    rw [hbase, join, hname.isAbsolute, if_neg Bool.false_ne_true, if_pos (.inl rfl),
      String.empty_append, components_of_segments hname.ne_empty hsegments, hfirst]
    rfl
  · obtain ⟨first, rest, hjoin, hfront⟩ := segments_join hbase hname.isAbsolute
    rw [hsegments] at hjoin
    rw [components_of_segments (ne_empty_of_segments hjoin (by simp)) hjoin, hfront,
      List.filterMap_append, hlast]
    rfl

theorem components_foldl_join (base : String) {names : List String}
    (h : ∀ name ∈ names, IsName name) :
    components (names.foldl join base) = components base ++ names.map Component.name := by
  induction names generalizing base with
  | nil => exact (List.append_nil _).symm
  | cons name names ih =>
    rw [List.forall_mem_cons] at h
    rw [List.foldl_cons, ih _ h.2, components_join base h.1, List.append_assoc]
    rfl

/-- What is joined to a path leaves its first component, unless it is absolute. -/
theorem opening_join {base : String} (hbase : base ≠ "") (text : String) :
    join base text ≠ "" ∧
      (opening (join base text) = opening base ∨ opening (join base text) = some .root) := by
  cases htext : isAbsolute text with
  | true =>
    rw [join, if_pos htext]
    refine ⟨?_, .inr (isAbsolute_iff_opening.mp htext)⟩
    rintro rfl
    cases htext
  | false =>
    obtain ⟨first, rest, hjoin, hfront⟩ := segments_join hbase htext
    obtain ⟨first', rest', htext'⟩ := exists_segments text
    have hne : join base text ≠ "" := ne_empty_of_segments hjoin (by simp [htext'])
    refine ⟨hne, .inl ?_⟩
    rw [opening, opening, components_of_segments hne hjoin, hfront]
    rfl

/-! ### Parents -/

theorem filterMap_dropWhile_isIdle (texts : List String) :
    (texts.dropWhile isIdle).filterMap Component.ofSegment? =
      texts.filterMap Component.ofSegment? := by
  induction texts with
  | nil => rfl
  | cons text texts ih =>
    by_cases hidle : isIdle text = true
    · rw [List.dropWhile_cons_of_pos hidle, ih,
        List.filterMap_cons_none (Option.isNone_iff_eq_none.mp hidle)]
    · rw [List.dropWhile_cons_of_neg hidle]

theorem exists_component_of_dropWhile {texts front : List String} {text : String}
    (h : texts.dropWhile isIdle = text :: front) :
    ∃ c, c ≠ .root ∧ texts.filterMap Component.ofSegment? =
      c :: front.filterMap Component.ofSegment? := by
  have hidle : isIdle text ≠ true := by
    have := List.head?_dropWhile_not isIdle texts
    rw [h] at this
    simpa using this
  obtain ⟨c, hc⟩ : ∃ c, Component.ofSegment? text = some c := by
    rw [isIdle, Ne, Option.isNone_iff_eq_none] at hidle
    exact Option.ne_none_iff_exists'.mp hidle
  refine ⟨c, fun hroot => ofSegment?_ne_root text (hroot ▸ hc), ?_⟩
  rw [← filterMap_dropWhile_isIdle, h, List.filterMap_cons_some hc]

theorem filterMap_eq_of_dropWhile {texts kept : List String} (h : texts.dropWhile isIdle = kept) :
    texts.filterMap Component.ofSegment? = kept.filterMap Component.ofSegment? := by
  rw [← h, filterMap_dropWhile_isIdle]

theorem components_ofSegments {first : String} {rest : List String} (hrest : rest ≠ [])
    (h : ∀ text ∈ first :: rest, '/' ∉ text.toList) :
    components (ofSegments (first :: rest)) =
      Component.ofFirst first :: rest.filterMap Component.ofSegment? := by
  have hsegments := segments_ofSegments (List.cons_ne_nil first rest) h
  exact components_of_segments (ne_empty_of_segments hsegments hrest) hsegments

theorem components_first {first : String} (h : '/' ∉ first.toList) :
    components (if first = "" then "/" else first) = [Component.ofFirst first] := by
  by_cases hfirst : first = ""
  · subst hfirst
    rfl
  · rw [if_neg hfirst, components_of_segments hfirst (segments_of_not_mem h)]
    rfl

/-- A path whose further segments name nothing has at most the working directory above it, and
otherwise the last segment that names something is dropped. -/
theorem parent?_of_segments {path first : String} {rest : List String}
    (h : segments path = first :: rest) :
    (rest.filterMap Component.ofSegment? = [] ∧
      parent? path = if first = "" then none else some "") ∨
    ∃ c front parent, c ≠ .root ∧ rest.filterMap Component.ofSegment? = front ++ [c] ∧
      parent? path = some parent ∧ components parent = Component.ofFirst first :: front := by
  have hslash : ∀ text ∈ first :: rest, '/' ∉ text.toList := fun text htext =>
    slash_not_mem_of_mem_segments (h ▸ htext)
  simp only [parent?, h]
  cases hback : rest.reverse.dropWhile isIdle with
  | nil =>
    refine .inl ⟨?_, rfl⟩
    simpa [List.filterMap_reverse] using filterMap_eq_of_dropWhile hback
  | cons text front =>
    obtain ⟨c, hc, hrest⟩ := exists_component_of_dropWhile hback
    rw [List.filterMap_reverse, List.reverse_eq_iff, List.reverse_cons] at hrest
    refine .inr ⟨c, (front.filterMap Component.ofSegment?).reverse, ?_⟩
    dsimp only
    cases hkept : front.dropWhile isIdle with
    | nil =>
      refine ⟨_, hc, hrest, rfl, ?_⟩
      rw [components_first (hslash first List.mem_cons_self), filterMap_eq_of_dropWhile hkept]
      rfl
    | cons last kept =>
      refine ⟨_, hc, hrest, rfl, ?_⟩
      rw [filterMap_eq_of_dropWhile hkept, ← List.filterMap_reverse]
      refine components_ofSegments (by simp) (List.forall_mem_cons.mpr ⟨?_, fun other hother => ?_⟩)
      · exact hslash first List.mem_cons_self
      · rw [List.mem_reverse, ← hkept] at hother
        have hfront : other ∈ text :: front :=
          List.mem_cons_of_mem text ((List.dropWhile_suffix isIdle).subset hother)
        rw [← hback] at hfront
        exact hslash other (List.mem_cons_of_mem first
          (List.mem_reverse.mp ((List.dropWhile_suffix isIdle).subset hfront)))

/-- The parent of a path has its components but the last, which is not the root. -/
theorem parent?_eq_some {path parent : String} (h : parent? path = some parent) :
    ∃ c, c ≠ .root ∧ components path = components parent ++ [c] := by
  have hpath : path ≠ "" := by
    rintro rfl
    cases h
  obtain ⟨first, rest, hsegments⟩ := exists_segments path
  rw [components_of_segments hpath hsegments]
  obtain ⟨hrest, hparent⟩ | ⟨c, front, above, hc, hrest, hparent, habove⟩ :=
    parent?_of_segments hsegments
  · by_cases hfirst : first = ""
    · rw [hparent, if_pos hfirst] at h
      cases h
    · rw [hparent, if_neg hfirst] at h
      cases h
      exact ⟨Component.ofFirst first, mt ofFirst_eq_root_iff.mp hfirst, by rw [hrest]; rfl⟩
  · cases hparent.symm.trans h
    exact ⟨c, hc, by rw [habove, hrest]; rfl⟩

/-- A path without a parent is empty or the root. -/
theorem parent?_eq_none {path : String} (h : parent? path = none) :
    components path = [] ∨ components path = [.root] := by
  by_cases hpath : path = ""
  · subst hpath
    exact .inl rfl
  obtain ⟨first, rest, hsegments⟩ := exists_segments path
  rw [components_of_segments hpath hsegments]
  obtain ⟨hrest, hparent⟩ | ⟨c, front, above, hc, hrest, hparent, habove⟩ :=
    parent?_of_segments hsegments
  · by_cases hfirst : first = ""
    · exact .inr (by rw [hrest, ofFirst_eq_root_iff.mpr hfirst])
    · rw [hparent, if_neg hfirst] at h
      cases h
  · cases hparent.symm.trans h

end ViewLint.Path
