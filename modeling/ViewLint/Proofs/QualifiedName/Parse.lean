import ViewLint.Proofs.QualifiedName.Generics

/-!
# Names of types with generic arguments

A dotted type name has any number of segments, each an identifier with or without generic
arguments or an arity, and suffixes of arrays and nullable types after the last one. Its parse drops
one group of arguments before it cuts the name at the last dot, and one after the cut, but none from
the namespace. The marks of a name are hence all dropped when none stands before the last segment,
or when one does and the arguments of the last segment have no dot. In every other case a mark
remains in the namespace.

## Main definitions

* `Mark`, `Segment`, `Suffix`: the parts of a written type name.
* `TypeName`, `TypeName.text`: a written type name.
* `TypeName.unmarked`: the type name without generic arguments and arities.
* `clearFirst`: segments without the first mark among them.

## Main results

* `stripGenerics_dotted`: the first mark of a dotted text is dropped.
* `TypeName.parse_text_eq_iff`: the type names from which all marks are dropped.
-/

namespace ViewLint.QualifiedName

open Text

/-! ### The parts of a type name -/

/-- What stands after an identifier: nothing, generic arguments, or an arity. -/
inductive Mark where
  | none
  | arguments (inside : List Char) (balanced : Balanced inside)
  | arity (digits : List Char) (isDigit : digits.all Char.isDigit = true)

namespace Mark

def text : Mark → List Char
  | none => []
  | arguments inside _ => '<' :: (inside ++ ['>'])
  | arity digits _ => Char.ofNat 0x60 :: digits

def isPresent : Mark → Bool
  | none => false
  | arguments .. => true
  | arity .. => true

theorem text_eq_nil {m : Mark} (h : m.isPresent = false) : m.text = [] := by
  cases m with
  | none => rfl
  | arguments => cases h
  | arity => cases h

theorem exists_text_eq_cons {m : Mark} (h : m.isPresent = true) :
    ∃ c cs, opensGenerics c = true ∧ m.text = c :: cs := by
  cases m with
  | none => cases h
  | arguments inside _ => exact ⟨'<', inside ++ ['>'], by decide, rfl⟩
  | arity digits _ => exact ⟨Char.ofNat 0x60, digits, by decide, rfl⟩

theorem isBlank_of_isDigit {c : Char} (h : c.isDigit = true) : isBlank c = false := by
  have hrange : 48 ≤ c.toNat ∧ c.toNat ≤ 57 := by
    simpa [Char.isDigit, UInt32.le_iff_toNat_le] using h
  simp only [isBlank, Bool.or_eq_false_iff, Bool.and_eq_false_iff, decide_eq_false_iff_not,
    beq_eq_false_iff_ne]
  omega

theorem tight_text (m : Mark) : Tight m.text := by
  cases m with
  | none => exact .nil
  | arguments inside _ => exact .enclosed (by decide) (by decide) inside
  | arity digits hdigits =>
    refine .of_forall fun c hc => ?_
    rcases List.mem_cons.mp hc with rfl | hc
    · decide
    · exact isBlank_of_isDigit (List.all_eq_true.mp hdigits c hc)

/-- The mark after a head is dropped. -/
theorem stripGenerics_append {m : Mark} (h : m.isPresent = true) {head rest : List Char}
    (hhead : ∀ c ∈ head, opensGenerics c = false) (htight : Tight head) (hrest : Tight rest)
    (hdigit : ∀ c ∈ rest.head?, c.isDigit = false) :
    stripGenerics (head ++ (m.text ++ rest)) = head ++ rest := by
  have hboth : stripGenerics (head ++ (m.text ++ rest)) = trimEnd head ++ trim rest := by
    cases m with
    | none => cases h
    | arguments inside balanced =>
      rw [← stripGenerics_arguments hhead balanced rest]
      simp [text]
    | arity digits hdigits =>
      exact stripGenerics_arity hhead (List.all_eq_true.mp hdigits) hdigit
  rw [hboth, htight.trimEnd_eq, hrest.trim_eq]

end Mark

/-- A character of an identifier: not a dot, not blank, and none that opens generic arguments. -/
def isPlain (c : Char) : Bool :=
  c != '.' && !opensGenerics c && !isBlank c

/-- A segment of a type name: an identifier and its mark. -/
structure Segment where
  name : List Char
  mark : Mark
  isPlain : name.all isPlain = true

namespace Segment

def text (s : Segment) : List Char :=
  s.name ++ s.mark.text

def isMarked (s : Segment) : Bool :=
  s.mark.isPresent

/-- The segment without its mark. -/
def unmarked (s : Segment) : Segment :=
  { s with mark := .none }

theorem text_unmarked (s : Segment) : s.unmarked.text = s.name :=
  List.append_nil s.name

theorem text_of_not_isMarked {s : Segment} (h : s.isMarked = false) : s.text = s.name := by
  rw [text, Mark.text_eq_nil h, List.append_nil]

theorem plain (s : Segment) {c : Char} (hc : c ∈ s.name) :
    (c ≠ '.' ∧ opensGenerics c = false) ∧ isBlank c = false := by
  simpa [QualifiedName.isPlain] using List.all_eq_true.mp s.isPlain c hc

theorem tight_name (s : Segment) : Tight s.name :=
  .of_forall fun _ hc => (s.plain hc).2

theorem tight_text (s : Segment) : Tight s.text :=
  s.tight_name.append s.mark.tight_text

theorem opensGenerics_append_name (s : Segment) {head : List Char}
    (hhead : ∀ c ∈ head, opensGenerics c = false) :
    ∀ c ∈ head ++ s.name, opensGenerics c = false := by
  intro c hc
  rcases List.mem_append.mp hc with hc | hc
  · exact hhead c hc
  · exact (s.plain hc).1.2

end Segment

/-- What stands after the last segment of a type name: the mark of a nullable type, or the brackets
of an array around the commas of its rank. -/
inductive Suffix where
  | nullable
  | array (rank : List Char) (separators : ∀ c ∈ rank, c = ',' ∨ isBlank c = true)

namespace Suffix

def text : Suffix → List Char
  | nullable => ['?']
  | array rank _ => '[' :: (rank ++ [']'])

/-- A suffix has no dot and opens no generic arguments. -/
theorem plain (s : Suffix) {c : Char} (hc : c ∈ s.text) : c ≠ '.' ∧ opensGenerics c = false := by
  cases s with
  | nullable =>
    rw [List.mem_singleton.mp hc]
    decide
  | array rank separators =>
    simp only [text, List.mem_cons, List.mem_append, List.not_mem_nil, or_false] at hc
    rcases hc with rfl | hc | rfl
    · decide
    · rcases separators c hc with rfl | hblank
      · decide
      · -- Neither the dot nor an opening character is blank.
        constructor
        · rintro rfl
          exact absurd hblank (by decide)
        · rw [opensGenerics, Bool.or_eq_false_iff, beq_eq_false_iff_ne, beq_eq_false_iff_ne]
          constructor
          · rintro rfl
            exact absurd hblank (by decide)
          · rintro rfl
            exact absurd hblank (by decide)
    · decide

theorem exists_text_eq_cons (s : Suffix) : ∃ c cs, c.isDigit = false ∧ s.text = c :: cs := by
  cases s with
  | nullable => exact ⟨'?', [], by decide, rfl⟩
  | array rank _ => exact ⟨'[', rank ++ [']'], by decide, rfl⟩

theorem tight_text (s : Suffix) : Tight s.text := by
  cases s with
  | nullable => exact .singleton (by decide)
  | array rank _ => exact .enclosed (by decide) (by decide) rank

end Suffix

/-! ### Segments -/

/-- The text of segments, each with a dot after it. -/
def dotted (ss : List Segment) : List Char :=
  ss.flatMap fun s => s.text ++ ['.']

/-- The text of segments with dots between them. -/
def qualifier (ss : List Segment) : List Char :=
  ['.'].intercalate (ss.map Segment.text)

/-- The segments without the first mark among them. -/
def clearFirst : List Segment → List Segment
  | [] => []
  | s :: ss => if s.isMarked then s.unmarked :: ss else s :: clearFirst ss

theorem dotted_cons (s : Segment) (ss : List Segment) :
    dotted (s :: ss) = s.text ++ '.' :: dotted ss := by
  simp [dotted]

theorem tight_dotted (ss : List Segment) : Tight (dotted ss) :=
  .flatMap fun s _ => s.tight_text.append (.singleton (by decide))

theorem dotted_eq_qualifier_append {ss : List Segment} (h : ss ≠ []) :
    dotted ss = qualifier ss ++ ['.'] := by
  induction ss with
  | nil => exact absurd rfl h
  | cons s ss ih =>
    cases ss with
    | nil => simp [dotted, qualifier]
    | cons s' ss =>
      rw [dotted_cons, ih (List.cons_ne_nil s' ss)]
      simp [qualifier, List.intercalate]

/-- The first mark of dotted text is dropped. -/
theorem stripGenerics_dotted {head rest : List Char} {ss : List Segment}
    (hhead : ∀ c ∈ head, opensGenerics c = false) (htight : Tight head) (hrest : Tight rest)
    (h : 0 < ss.countP Segment.isMarked) :
    stripGenerics (head ++ (dotted ss ++ rest)) = head ++ (dotted (clearFirst ss) ++ rest) := by
  induction ss generalizing head with
  | nil => exact absurd h (by simp)
  | cons s ss ih =>
    -- The mark of the segment is the first one, or the segment joins the head.
    have hname := s.opensGenerics_append_name hhead
    rw [clearFirst]
    by_cases hs : s.isMarked = true
    · have hdot : Tight ('.' :: (dotted ss ++ rest)) :=
        (Tight.singleton (by decide)).append ((tight_dotted ss).append hrest)
      have hstrip := Mark.stripGenerics_append hs hname (htight.append s.tight_name) hdot
        (by rintro c ⟨⟩; decide)
      rw [if_pos hs, dotted_cons, dotted_cons, s.text_unmarked, Segment.text]
      simpa using hstrip
    · have hs' : s.isMarked = false := by simpa using hs
      have hcount : 0 < ss.countP Segment.isMarked := by
        rwa [List.countP_cons_of_neg hs] at h
      have hdot : ∀ c ∈ head ++ s.name ++ ['.'], opensGenerics c = false := by
        intro c hc
        rcases List.mem_append.mp hc with hc | hc
        · exact hname c hc
        · rw [List.mem_singleton.mp hc]
          decide
      have hstrip := ih hdot
        ((htight.append s.tight_name).append (.singleton (by decide))) hcount
      rw [if_neg hs, dotted_cons, dotted_cons, Segment.text_of_not_isMarked hs']
      simpa using hstrip

theorem countP_clearFirst (ss : List Segment) :
    (clearFirst ss).countP Segment.isMarked = ss.countP Segment.isMarked - 1 := by
  induction ss with
  | nil => rfl
  | cons s ss ih =>
    rw [clearFirst]
    by_cases hs : s.isMarked = true
    · have hunmarked : ¬s.unmarked.isMarked = true := Bool.false_ne_true
      rw [if_pos hs, List.countP_cons_of_pos hs, List.countP_cons_of_neg hunmarked,
        Nat.add_sub_cancel]
    · rw [if_neg hs, List.countP_cons_of_neg hs, List.countP_cons_of_neg hs, ih]

theorem map_name_clearFirst (ss : List Segment) :
    (clearFirst ss).map Segment.name = ss.map Segment.name := by
  induction ss with
  | nil => rfl
  | cons s ss ih =>
    rw [clearFirst]
    split
    · rfl
    · rw [List.map_cons, List.map_cons, ih]

theorem countP_map_unmarked (ss : List Segment) :
    (ss.map Segment.unmarked).countP Segment.isMarked = 0 := by
  rw [List.countP_eq_zero]
  intro s hs
  obtain ⟨s, -, rfl⟩ := List.mem_map.mp hs
  exact Bool.false_ne_true

theorem text_eq_name {s : Segment} {ss : List Segment} (h : ss.countP Segment.isMarked = 0)
    (hs : s ∈ ss) : s.text = s.name :=
  Segment.text_of_not_isMarked (by simpa using List.countP_eq_zero.mp h s hs)

/-- Segments without marks have the text of their names. -/
theorem qualifier_of_unmarked {ss : List Segment} (h : ss.countP Segment.isMarked = 0) :
    qualifier ss = ['.'].intercalate (ss.map Segment.name) := by
  rw [qualifier, List.map_congr_left fun s hs => text_eq_name h hs]

/-- Segments without marks open no generic arguments. -/
theorem opensGenerics_of_mem_dotted {ss : List Segment} (h : ss.countP Segment.isMarked = 0)
    {c : Char} (hc : c ∈ dotted ss) : opensGenerics c = false := by
  obtain ⟨s, hs, hc⟩ := List.mem_flatMap.mp hc
  rw [text_eq_name h hs] at hc
  rcases List.mem_append.mp hc with hc | hc
  · exact (s.plain hc).1.2
  · rw [List.mem_singleton.mp hc]
    decide

theorem opensGenerics_of_mem_qualifier {ss : List Segment} (h : ss.countP Segment.isMarked = 0)
    {c : Char} (hc : c ∈ qualifier ss) : opensGenerics c = false := by
  by_cases hss : ss = []
  · subst hss
    cases hc
  · refine opensGenerics_of_mem_dotted h ?_
    rw [dotted_eq_qualifier_append hss]
    exact List.mem_append_left ['.'] hc

/-- A mark among the segments opens generic arguments. -/
theorem exists_opensGenerics_qualifier {ss : List Segment}
    (h : 0 < ss.countP Segment.isMarked) : ∃ c ∈ qualifier ss, opensGenerics c = true := by
  obtain ⟨s, hs, hmarked⟩ := List.countP_pos_iff.mp h
  obtain ⟨c, cs, hopen, htext⟩ := Mark.exists_text_eq_cons hmarked
  have hc : c ∈ dotted ss :=
    List.mem_flatMap.mpr ⟨s, hs, by simp [Segment.text, htext]⟩
  rw [dotted_eq_qualifier_append (List.ne_nil_of_mem hs)] at hc
  rcases List.mem_append.mp hc with hc | hc
  · exact ⟨c, hc, hopen⟩
  · rw [List.mem_singleton.mp hc] at hopen
    exact absurd hopen (by decide)

/-- The first mark of a text without blanks at its ends is dropped before the text is cut. -/
theorem parse_of_cutLast {cs a b : List Char} (htight : Tight cs)
    (h : cutLast '.' (stripGenerics cs) = some (a, b)) :
    parse (String.ofList cs) = ofParts a b := by
  rw [parse, String.toList_ofList, htight.trim_eq]
  simp only [h]

/-- The segments before the last dot are the namespace. -/
theorem parse_of_stripGenerics {cs rest : List Char} {ss : List Segment} (htight : Tight cs)
    (h : stripGenerics cs = dotted ss ++ rest) (hrest : '.' ∉ rest) :
    parse (String.ofList cs) = ofParts (qualifier ss) rest := by
  by_cases hss : ss = []
  · subst hss
    rw [parse, String.toList_ofList, htight.trim_eq, h]
    simp only [dotted, List.flatMap_nil, List.nil_append, cutLast_eq_none hrest]
    rfl
  · refine parse_of_cutLast htight ?_
    rw [h, dotted_eq_qualifier_append hss, List.append_assoc, List.singleton_append,
      cutLast_append_cons hrest]

/-! ### Type names -/

/-- A written type name: its segments and what stands after the last of them. -/
structure TypeName where
  outer : List Segment
  last : Segment
  suffixes : List Suffix

namespace TypeName

variable (t : TypeName)

/-- The text after the last segment. -/
def tail : List Char :=
  t.suffixes.flatMap Suffix.text

def chars : List Char :=
  dotted t.outer ++ (t.last.text ++ t.tail)

def text : String :=
  String.ofList t.chars

/-- The number of marks before the last segment. -/
def outerMarks : Nat :=
  t.outer.countP Segment.isMarked

/-- The type name without its generic arguments and arities. -/
def unmarked : TypeName :=
  { t with outer := t.outer.map Segment.unmarked, last := t.last.unmarked }

/-- The identifiers of a type name: those before the last are its namespace. -/
def plainName : QualifiedName :=
  ⟨String.ofList (['.'].intercalate (t.outer.map Segment.name)),
    String.ofList (t.last.name ++ t.tail)⟩

/-- No mark stands before the last segment, or one does and the mark of the last has no dot. -/
def IsClearable : Prop :=
  t.outerMarks = 0 ∨ (t.outerMarks = 1 ∧ '.' ∉ t.last.mark.text)

theorem outerMarks_unmarked : t.unmarked.outerMarks = 0 :=
  countP_map_unmarked t.outer

theorem plain_tail : ∀ c ∈ t.tail, c ≠ '.' ∧ opensGenerics c = false := by
  intro c hc
  obtain ⟨s, -, hc⟩ := List.mem_flatMap.mp hc
  exact s.plain hc

theorem tight_tail : Tight t.tail :=
  .flatMap fun s _ => s.tight_text

theorem isDigit_head?_tail : ∀ c ∈ t.tail.head?, c.isDigit = false := by
  intro c hc
  rw [tail] at hc
  cases hsuffixes : t.suffixes with
  | nil => simp [hsuffixes] at hc
  | cons s ss =>
    obtain ⟨d, ds, hdigit, hs⟩ := s.exists_text_eq_cons
    rw [hsuffixes, List.flatMap_cons, hs] at hc
    cases hc
    exact hdigit

theorem tight_chars : Tight t.chars :=
  (tight_dotted t.outer).append (t.last.tight_text.append t.tight_tail)

theorem plain_last : ∀ c ∈ t.last.name ++ t.tail, c ≠ '.' ∧ opensGenerics c = false := by
  intro c hc
  rcases List.mem_append.mp hc with hc | hc
  · exact (t.last.plain hc).1
  · exact t.plain_tail c hc

/-- The mark of the last segment is dropped when none stands before it. -/
theorem stripGenerics_last {head : List Char} (hhead : ∀ c ∈ head, opensGenerics c = false)
    (htight : Tight head) :
    stripGenerics (head ++ (t.last.text ++ t.tail)) = head ++ (t.last.name ++ t.tail) := by
  by_cases hmarked : t.last.isMarked = true
  · have hstrip := Mark.stripGenerics_append hmarked (t.last.opensGenerics_append_name hhead)
      (htight.append t.last.tight_name) t.tight_tail t.isDigit_head?_tail
    rw [Segment.text]
    simpa using hstrip
  · rw [Segment.text_of_not_isMarked (by simpa using hmarked)]
    refine stripGenerics_of_forall fun c hc => ?_
    rcases List.mem_append.mp hc with hc | hc
    · exact hhead c hc
    · exact (t.plain_last c hc).2

/-- The name after the cut is the last identifier with its suffixes. -/
theorem ofParts_last (ns : List Char) :
    ofParts ns (t.last.text ++ t.tail) =
      ⟨String.ofList ns, String.ofList (t.last.name ++ t.tail)⟩ := by
  have hstrip := t.stripGenerics_last (fun _ hc => absurd hc List.not_mem_nil) .nil
  rw [List.nil_append, List.nil_append] at hstrip
  rw [ofParts, hstrip]

variable {t}

/-- All marks are dropped when none stands before the last segment. -/
theorem parse_text_of_unmarked (h : t.outerMarks = 0) : parse t.text = t.plainName := by
  have hstrip : stripGenerics t.chars = dotted t.outer ++ (t.last.name ++ t.tail) :=
    t.stripGenerics_last (fun _ hc => opensGenerics_of_mem_dotted h hc) (tight_dotted t.outer)
  have hlast : stripGenerics (t.last.name ++ t.tail) = t.last.name ++ t.tail :=
    stripGenerics_of_forall fun c hc => (t.plain_last c hc).2
  rw [text, parse_of_stripGenerics t.tight_chars hstrip fun hdot => (t.plain_last _ hdot).1 rfl,
    ofParts, hlast, qualifier_of_unmarked h, plainName]

theorem stripGenerics_chars (h : 0 < t.outerMarks) :
    stripGenerics t.chars = dotted (clearFirst t.outer) ++ (t.last.text ++ t.tail) :=
  stripGenerics_dotted (fun _ hc => absurd hc List.not_mem_nil) .nil
    (t.last.tight_text.append t.tight_tail) h

/-- The first mark is dropped from the namespace, and the mark of the last segment. -/
theorem parse_text_of_not_mem (h : 0 < t.outerMarks) (hdot : '.' ∉ t.last.mark.text) :
    parse t.text =
      ⟨String.ofList (qualifier (clearFirst t.outer)),
        String.ofList (t.last.name ++ t.tail)⟩ := by
  have hlast : '.' ∉ t.last.text ++ t.tail := by
    rw [Segment.text, List.append_assoc, List.mem_append, List.mem_append]
    rintro (hname | hmark | htail)
    · exact (t.last.plain hname).1.1 rfl
    · exact hdot hmark
    · exact (t.plain_tail _ htail).1 rfl
  rw [text, parse_of_stripGenerics t.tight_chars (stripGenerics_chars h) hlast, ofParts_last]

/-- A name that is cut inside the arguments of its last segment has their bracket in its
namespace. -/
theorem exists_opensGenerics_of_mem (h : 0 < t.outerMarks) (hdot : '.' ∈ t.last.mark.text) :
    ∃ c ∈ (parse t.text).namespaceName.toList, opensGenerics c = true := by
  have hmarked : t.last.isMarked = true := by
    by_contra hnot
    rw [Mark.text_eq_nil (by simpa [Segment.isMarked] using hnot)] at hdot
    exact List.not_mem_nil hdot
  obtain ⟨c, cs, hopen, hmark⟩ := Mark.exists_text_eq_cons hmarked
  have hcs : '.' ∈ cs ++ t.tail := by
    rw [hmark, List.mem_cons] at hdot
    rcases hdot with rfl | hdot
    · exact absurd hopen (by decide)
    · exact List.mem_append_left t.tail hdot
  obtain ⟨a, b, hcut⟩ := exists_cutLast hcs
  have hchars : stripGenerics t.chars =
      (dotted (clearFirst t.outer) ++ t.last.name ++ [c]) ++ (cs ++ t.tail) := by
    rw [stripGenerics_chars h, Segment.text, hmark]
    simp
  have hparse := parse_of_cutLast t.tight_chars (by
    rw [hchars, cutLast_append_of_mem hcs, hcut, Option.map_some])
  exact ⟨c, by simp [text, hparse, ofParts], hopen⟩

theorem plainName_unmarked (t : TypeName) : t.unmarked.plainName = t.plainName := by
  rw [plainName, unmarked, List.map_map]
  rfl

theorem opensGenerics_plainName {c : Char} (hc : c ∈ t.plainName.namespaceName.toList) :
    opensGenerics c = false := by
  have hcount := countP_map_unmarked t.outer
  rw [← plainName_unmarked, plainName, String.toList_ofList] at hc
  exact opensGenerics_of_mem_qualifier hcount (by rwa [qualifier_of_unmarked hcount])

theorem parse_text_of_isClearable (h : t.IsClearable) : parse t.text = t.plainName := by
  rcases h with h | ⟨h, hdot⟩
  · exact parse_text_of_unmarked h
  · have hclear : (clearFirst t.outer).countP Segment.isMarked = 0 := by
      rw [countP_clearFirst, ← outerMarks, h]
    rw [parse_text_of_not_mem (by omega) hdot, qualifier_of_unmarked hclear, map_name_clearFirst,
      plainName]

theorem exists_opensGenerics_of_not_isClearable (h : ¬t.IsClearable) :
    ∃ c ∈ (parse t.text).namespaceName.toList, opensGenerics c = true := by
  rw [IsClearable, not_or, not_and, not_not] at h
  obtain ⟨hzero, hone⟩ := h
  by_cases hdot : '.' ∈ t.last.mark.text
  · exact exists_opensGenerics_of_mem (by omega) hdot
  · -- Of two marks before the last segment, the second remains.
    have hclear : 0 < (clearFirst t.outer).countP Segment.isMarked := by
      have hne : t.outerMarks ≠ 1 := fun h => hdot (hone h)
      rw [countP_clearFirst, ← outerMarks]
      omega
    rw [parse_text_of_not_mem (by omega) hdot, String.toList_ofList]
    exact exists_opensGenerics_qualifier hclear

/-- **Which marks a parse drops.** The parse of a type name without its marks gives its identifiers.
The parse of the type name itself gives them if and only if no mark stands before the last segment,
or one does and the mark of the last segment has no dot. Otherwise the namespace has a character
that opens generic arguments. -/
theorem parse_text_eq_iff (t : TypeName) :
    parse t.unmarked.text = t.plainName ∧
      (parse t.text = parse t.unmarked.text ↔ t.IsClearable) ∧
      (parse t.text = parse t.unmarked.text ∨
        ∃ c ∈ (parse t.text).namespaceName.toList, opensGenerics c = true) := by
  have hunmarked : parse t.unmarked.text = t.plainName :=
    (parse_text_of_unmarked t.outerMarks_unmarked).trans t.plainName_unmarked
  rw [hunmarked]
  refine ⟨rfl, ?_⟩
  by_cases h : t.IsClearable
  · have hparse := parse_text_of_isClearable h
    exact ⟨iff_of_true hparse h, Or.inl hparse⟩
  · obtain ⟨c, hc, hopen⟩ := exists_opensGenerics_of_not_isClearable h
    have hne : parse t.text ≠ t.plainName := by
      intro hparse
      rw [hparse] at hc
      rw [opensGenerics_plainName hc] at hopen
      cases hopen
    exact ⟨iff_of_false hne h, Or.inr ⟨c, hc, hopen⟩⟩

/-- The name of a type in a generic type, its argument a type with a namespace. -/
def inGeneric : TypeName where
  outer := [⟨"App".toList, .none, by decide⟩,
    ⟨"Outer".toList, .arguments "int".toList (.of_all (by decide)), by decide⟩]
  last := ⟨"Inner".toList,
    .arguments "System.String".toList (.of_all (by decide)), by decide⟩
  suffixes := []

/-- The type name in a generic type is cut inside the arguments of its last segment. -/
theorem parse_text_inGeneric :
    inGeneric.text = "App.Outer<int>.Inner<System.String>" ∧
      parse inGeneric.text = ⟨"App.Outer.Inner<System", "String>"⟩ ∧
      parse inGeneric.unmarked.text = ⟨"App.Outer", "Inner"⟩ := by
  decide

end TypeName

end ViewLint.QualifiedName
