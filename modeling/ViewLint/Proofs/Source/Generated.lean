import Mathlib.Data.List.Forall2
import ViewLint.Source.Generated

/-!
# Which sources are generated

A source is generated by the ending of its path, or by a mark in its header. The header is what
stands before the twentieth line break. A mark counts from the start of a line on: there, blanks
apart, stand two slashes and then, blanks apart, the word of the mark.

## Main definitions

* `Text.IsVariant`, `Text.Spells`: characters and words up to case.
* `Source.IsHeader`: the part of a text before its twentieth line break.
* `Source.HasEnding`, `Source.HasMark`: what makes a source generated.

## Main results

* `Text.foldCase_eq_iff`: which characters fold to one that is in lower case.
* `Source.isHeader_iff`: the header of a source is the part before its twentieth line break.
* `Source.hasGeneratedEnding_iff`, `Source.someLine_startsWithMark_iff`: endings and marks are found
  exactly if they are there.
* `Source.isGenerated_iff_ending_or_mark`: which sources are generated, and that nothing after the
  twentieth line break counts.
-/

namespace ViewLint

namespace Text

/-! ### Case -/

/-- A character is the given one in lower or in upper case, or one of the two characters outside
of ASCII whose case folding is an ASCII letter. -/
def IsVariant (w c : Char) : Prop :=
  c = w ∨ c = w.toUpper ∨ w = 's' ∧ c = Char.ofNat 0x17F ∨ w = 'k' ∧ c = Char.ofNat 0x212A

/-- A text spells a word that is given in lower case. -/
def Spells (word text : List Char) : Prop :=
  List.Forall₂ IsVariant word text

theorem toNat_toLower (c : Char) :
    c.toLower.toNat = if 65 ≤ c.toNat ∧ c.toNat ≤ 90 then c.toNat + 32 else c.toNat := by
  by_cases h : 65 ≤ c.toNat ∧ c.toNat ≤ 90
  · have hval : c.val ≥ 'A'.val ∧ c.val ≤ 'Z'.val := h
    rw [if_pos h]
    delta Char.toLower
    rw [dif_pos hval]
    change (c.toNat + 32) % 2 ^ 32 = c.toNat + 32
    omega
  · have hval : ¬(c.val ≥ 'A'.val ∧ c.val ≤ 'Z'.val) := h
    rw [if_neg h]
    delta Char.toLower
    rw [dif_neg hval]

theorem toNat_toUpper (c : Char) :
    c.toUpper.toNat = if 97 ≤ c.toNat ∧ c.toNat ≤ 122 then c.toNat - 32 else c.toNat := by
  by_cases h : 97 ≤ c.toNat ∧ c.toNat ≤ 122
  · have hval : c.val ≥ 'a'.val ∧ c.val ≤ 'z'.val := h
    rw [if_pos h]
    delta Char.toUpper
    rw [dif_pos hval]
    -- Going up in case is an addition that wraps around.
    change (c.val + 4294967264).toNat = c.val.toNat - 32
    have : 97 ≤ c.val.toNat ∧ c.val.toNat ≤ 122 := h
    rw [UInt32.toNat_add]
    change (c.val.toNat + 4294967264) % 4294967296 = c.val.toNat - 32
    omega
  · have hval : ¬(c.val ≥ 'a'.val ∧ c.val ≤ 'z'.val) := h
    rw [if_neg h]
    delta Char.toUpper
    rw [dif_neg hval]

theorem toLower_eq_iff {w c : Char} (hw : w.toLower = w) :
    c.toLower = w ↔ c = w ∨ c = w.toUpper := by
  rw [← Char.toNat_inj, toNat_toLower] at hw
  rw [← Char.toNat_inj, ← Char.toNat_inj, ← Char.toNat_inj, toNat_toLower, toNat_toUpper]
  split_ifs at * <;> omega

/-- Outside of ASCII, only a character itself has it as its upper case. -/
theorem eq_of_eq_toUpper {w c : Char} (hc : 128 ≤ c.toNat) (h : c = w.toUpper) : w = c := by
  rw [← Char.toNat_inj, toNat_toUpper] at h
  rw [← Char.toNat_inj]
  split_ifs at h <;> omega

/-- The characters that fold to one in lower case are its variants. -/
theorem foldCase_eq_iff {w c : Char} (hw : foldCase w = w) : foldCase c = w ↔ IsVariant w c := by
  have hself : w ≠ Char.ofNat 0x17F ∧ w ≠ Char.ofNat 0x212A ∧ w.toLower = w := by
    rw [foldCase] at hw
    split_ifs at hw with hs hk
    · exact absurd (hw.trans hs) (by decide)
    · exact absurd (hw.trans hk) (by decide)
    · exact ⟨hs, hk, hw⟩
  obtain ⟨hs, hk, hlower⟩ := hself
  rw [foldCase, IsVariant]
  split_ifs with hcs hck
  · subst hcs
    have hupper : Char.ofNat 0x17F ≠ w.toUpper := fun h => hs (eq_of_eq_toUpper (by decide) h)
    simp [hs.symm, hupper, eq_comm]
  · subst hck
    have hupper : Char.ofNat 0x212A ≠ w.toUpper := fun h => hk (eq_of_eq_toUpper (by decide) h)
    simp [hk.symm, hupper, eq_comm]
  · rw [toLower_eq_iff hlower]
    simp [hcs, hck]

/-- A character without case has no variant but itself. -/
theorem IsVariant.eq_of_toUpper {w c : Char} (h : IsVariant w c) (hw : w.toUpper = w) : c = w := by
  rcases h with h | h | ⟨rfl, -⟩ | ⟨rfl, -⟩
  · exact h
  · exact h.trans hw
  · cases hw
  · cases hw

theorem exists_spells_cons {w c : Char} {word cs rest : List Char} :
    (∃ spelled, c :: cs = spelled ++ rest ∧ Spells (w :: word) spelled) ↔
      IsVariant w c ∧ ∃ spelled, cs = spelled ++ rest ∧ Spells word spelled := by
  constructor
  · rintro ⟨spelled, htext, hspelled⟩
    cases hspelled with
    | cons hfirst hrest =>
      obtain ⟨rfl, rfl⟩ := List.cons.inj htext
      exact ⟨hfirst, _, rfl, hrest⟩
  · rintro ⟨hfirst, spelled, rfl, hspelled⟩
    exact ⟨c :: spelled, rfl, .cons hfirst hspelled⟩

/-- A word in lower case is passed over exactly where a text spells it. -/
theorem afterWord_eq_some_iff {word text rest : List Char} (hword : word.map foldCase = word) :
    afterWord word text = some rest ↔ ∃ spelled, text = spelled ++ rest ∧ Spells word spelled := by
  induction word generalizing text with
  | nil => simp [afterWord, Spells, eq_comm]
  | cons w word ih =>
    obtain ⟨hw, hword⟩ := List.cons.inj hword
    cases text with
    | nil => simp [afterWord, Spells]
    | cons c cs =>
      rw [afterWord, exists_spells_cons, ← foldCase_eq_iff hw, ← ih hword]
      by_cases hc : foldCase c = w
      · simp [hc]
      · simp [hc]

theorem isSome_afterWord_iff {word text : List Char} (hword : word.map foldCase = word) :
    (afterWord word text).isSome = true ↔
      ∃ spelled rest, text = spelled ++ rest ∧ Spells word spelled := by
  rw [Option.isSome_iff_exists, exists_comm]
  exact exists_congr fun rest => afterWord_eq_some_iff hword

theorem afterWord_append (word word' text : List Char) :
    afterWord (word ++ word') text = (afterWord word text).bind (afterWord word') := by
  induction word generalizing text with
  | nil => rfl
  | cons w word ih =>
    cases text with
    | nil => rfl
    | cons c cs =>
      rw [List.cons_append, afterWord, afterWord, ih]
      split <;> rfl

/-! ### Blanks in front -/

/-- Some blanks are dropped from the front of a text that starts with none. -/
theorem trimStart_append {blanks rest : List Char} (hblanks : ∀ c ∈ blanks, isBlank c = true)
    (hrest : ∀ c ∈ rest.head?, isBlank c = false) : trimStart (blanks ++ rest) = rest := by
  rw [trimStart, List.dropWhile_append_of_pos hblanks]
  cases rest with
  | nil => rfl
  | cons c rest => exact List.dropWhile_cons_of_neg (by simp [hrest c rfl])

theorem exists_blanks_append_trimStart (cs : List Char) :
    ∃ blanks, (∀ c ∈ blanks, isBlank c = true) ∧ cs = blanks ++ trimStart cs :=
  ⟨cs.takeWhile isBlank, List.all_eq_true.mp List.all_takeWhile,
    List.takeWhile_append_dropWhile.symm⟩

end Text

namespace Source

open Text

/-! ### Endings -/

/-- A path ends, up to case, like the path of a generated file. -/
def HasEnding (path : String) : Prop :=
  ∃ ending ∈ [".g.cs", ".g.i.cs", ".designer.cs", ".generated.cs"], ∃ front spelled,
    path.toList = front ++ spelled ∧ Spells ending.toList spelled

theorem isWord_drop_iff {word cs : List Char} (hword : word.map foldCase = word) :
    (decide (word.length ≤ cs.length) && isWord word (cs.drop (cs.length - word.length))) = true ↔
      ∃ front spelled, cs = front ++ spelled ∧ Spells word spelled := by
  rw [Bool.and_eq_true, decide_eq_true_iff, isWord, beq_iff_eq, afterWord_eq_some_iff hword]
  constructor
  · rintro ⟨-, spelled, hdrop, hspelled⟩
    refine ⟨cs.take (cs.length - word.length), spelled, ?_, hspelled⟩
    rw [← List.append_nil spelled, ← hdrop, List.take_append_drop]
  · rintro ⟨front, spelled, rfl, hspelled⟩
    have hlength : word.length = spelled.length := List.Forall₂.length_eq hspelled
    refine ⟨by simp [hlength], spelled, ?_, hspelled⟩
    simp [hlength]

theorem hasGeneratedEnding_iff (path : String) :
    hasGeneratedEnding path = true ↔ HasEnding path := by
  have hlower : ∀ ending ∈ generatedEndings, ending.toList.map foldCase = ending.toList := by
    decide
  rw [hasGeneratedEnding, List.any_eq_true, HasEnding]
  exact exists_congr fun ending => and_congr_right fun h => isWord_drop_iff (hlower ending h)

/-! ### The header -/

/-- The part of a text in which a mark counts: the text before its twentieth line break, and all of
it if it has fewer. -/
def IsHeader (text head : List Char) : Prop :=
  text.count '\n' < 20 ∧ head = text ∨
    head.count '\n' = 19 ∧ ∃ rest, text = head ++ '\n' :: rest

theorem beforeBreak_of_count_lt {n : Nat} {cs : List Char} (h : cs.count '\n' < n) :
    beforeBreak n cs = cs := by
  induction cs generalizing n with
  | nil => cases n <;> rfl
  | cons c cs ih =>
    obtain ⟨n, rfl⟩ := Nat.exists_eq_add_one_of_ne_zero (Nat.ne_zero_of_lt h)
    rw [beforeBreak]
    by_cases hc : c = '\n'
    · rw [hc, List.count_cons_self] at h
      rw [if_pos hc, if_neg (by omega), ih (by omega)]
    · rw [List.count_cons_of_ne hc] at h
      rw [if_neg hc, ih h]

/-- The part before a line break is what stands in front of it. -/
theorem beforeBreak_append {n : Nat} {cs : List Char} (h : cs.count '\n' = n) (rest : List Char) :
    beforeBreak (n + 1) (cs ++ '\n' :: rest) = cs := by
  induction cs generalizing n with
  | nil =>
    subst h
    rfl
  | cons c cs ih =>
    rw [List.cons_append, beforeBreak]
    by_cases hc : c = '\n'
    · rw [hc, List.count_cons_self] at h
      subst h
      rw [if_pos hc, if_neg (Nat.succ_ne_zero _), ih rfl]
    · rw [List.count_cons_of_ne hc] at h
      rw [if_neg hc, ih h]

/-- A text with enough line breaks is cut at the one with a given number. -/
theorem exists_append_of_lt_count {n : Nat} {cs : List Char} (h : n < cs.count '\n') :
    ∃ head rest, head.count '\n' = n ∧ cs = head ++ '\n' :: rest := by
  induction cs generalizing n with
  | nil => simp at h
  | cons c cs ih =>
    by_cases hc : c = '\n'
    · subst hc
      rw [List.count_cons_self] at h
      cases n with
      | zero => exact ⟨[], cs, rfl, rfl⟩
      | succ n =>
        obtain ⟨head, rest, hcount, rfl⟩ := ih (Nat.lt_of_succ_lt_succ h)
        exact ⟨'\n' :: head, rest, by rw [List.count_cons_self, hcount], rfl⟩
    · rw [List.count_cons_of_ne hc] at h
      obtain ⟨head, rest, hcount, rfl⟩ := ih h
      exact ⟨c :: head, rest, by rw [List.count_cons_of_ne hc, hcount], rfl⟩

theorem isHeader_iff (source : String) (head : List Char) :
    IsHeader source.toList head ↔ header source = head := by
  rw [header, headerLines]
  constructor
  · rintro (⟨hcount, rfl⟩ | ⟨hcount, rest, hsource⟩)
    · exact beforeBreak_of_count_lt hcount
    · rw [hsource, beforeBreak_append hcount]
  · rintro rfl
    by_cases hcount : source.toList.count '\n' < 20
    · exact .inl ⟨hcount, beforeBreak_of_count_lt hcount⟩
    · obtain ⟨head, rest, hhead, hsource⟩ := exists_append_of_lt_count (Nat.not_lt.mp hcount)
      refine .inr ?_
      rw [hsource, beforeBreak_append hhead]
      exact ⟨hhead, rest, rfl⟩

/-- Nothing after the twentieth line break belongs to the header. -/
theorem header_append {kept : String} (h : 20 ≤ kept.toList.count '\n') (rest : String) :
    header (kept ++ rest) = header kept := by
  obtain ⟨head, tail, hhead, hkept⟩ := exists_append_of_lt_count h
  rw [header, header, headerLines, String.toList_append, hkept, List.append_assoc,
    List.cons_append, beforeBreak_append hhead, beforeBreak_append hhead]

/-! ### The mark -/

/-- A text is the mark of generated files, in one of its two spellings. -/
def SpellsMark (mark : List Char) : Prop :=
  Spells "<auto-generated".toList mark ∨ Spells "<autogenerated".toList mark

/-- A text starts with a comment that opens with the mark. Blanks, also line breaks, may stand
before and after the slashes. -/
def OpensWithMark (cs : List Char) : Prop :=
  ∃ blanks blanks' mark rest, cs = blanks ++ '/' :: '/' :: (blanks' ++ (mark ++ rest)) ∧
    (∀ c ∈ blanks, isBlank c = true) ∧ (∀ c ∈ blanks', isBlank c = true) ∧ SpellsMark mark

/-- From the start of some line on, a text starts with a comment that opens with the mark. -/
def HasMark (cs : List Char) : Prop :=
  ∃ before rest, cs = before ++ rest ∧ (before = [] ∨ before.getLast? = some '\n') ∧
    OpensWithMark rest

theorem someLine_iff (p : List Char → Bool) (lineStart : Bool) (cs : List Char) :
    someLine p lineStart cs = true ↔ ∃ before rest, cs = before ++ rest ∧
      (before = [] ∧ lineStart = true ∨ before.getLast? = some '\n') ∧ p rest = true := by
  induction cs generalizing lineStart with
  | nil => simp [someLine]
  | cons c cs ih =>
    rw [someLine, Bool.or_eq_true, Bool.and_eq_true, ih]
    constructor
    · rintro (⟨hstart, hp⟩ | ⟨before, rest, rfl, hbefore, hp⟩)
      · exact ⟨[], c :: cs, rfl, .inl ⟨rfl, hstart⟩, hp⟩
      · refine ⟨c :: before, rest, rfl, .inr ?_, hp⟩
        rcases hbefore with ⟨rfl, hc⟩ | hlast
        · simpa using hc
        · rw [List.getLast?_cons, hlast]
          rfl
    · rintro ⟨before, rest, hcs, hbefore, hp⟩
      cases before with
      | nil =>
        subst hcs
        exact .inl ⟨by simpa using hbefore, hp⟩
      | cons d before =>
        obtain ⟨rfl, rfl⟩ := List.cons.inj hcs
        refine .inr ⟨before, rest, rfl, ?_, hp⟩
        rw [List.getLast?_cons] at hbefore
        cases hlast : before.getLast? with
        | none => exact .inl ⟨List.getLast?_eq_none_iff.mp hlast, by simpa [hlast] using hbefore⟩
        | some last => exact .inr (by simpa [hlast] using hbefore)

/-- Only a hyphen goes on like the first spelling of the mark. -/
theorem afterWord_hyphen {cs : List Char} (h : ∀ rest, cs ≠ '-' :: rest) (word : List Char) :
    afterWord ('-' :: word) cs = none := by
  cases cs with
  | nil => rfl
  | cons c cs =>
    have hc : foldCase c ≠ '-' := by
      intro hc
      have hhyphen : c = '-' := ((foldCase_eq_iff rfl).mp hc).eq_of_toUpper rfl
      exact h cs (by rw [hhyphen])
    exact if_neg hc

/-- The spellings of the mark differ in a hyphen, which is looked for after their common part. -/
theorem startsWithMark_of_slashes {cs rest : List Char} (h : trimStart cs = '/' :: '/' :: rest) :
    startsWithMark cs = ((afterWord "<auto-generated".toList (trimStart rest)).isSome ||
      (afterWord "<autogenerated".toList (trimStart rest)).isSome) := by
  have hhyphen : "<auto-generated".toList = "<auto".toList ++ '-' :: "generated".toList := rfl
  have hplain : "<autogenerated".toList = "<auto".toList ++ "generated".toList := rfl
  rw [hhyphen, hplain, afterWord_append, afterWord_append]
  simp only [startsWithMark, h]
  cases afterWord "<auto".toList (trimStart rest) with
  | none => rfl
  | some rest =>
    rw [Option.bind_some, Option.bind_some]
    split
    next rest' h =>
      -- After a hyphen the second spelling fails at its first letter.
      cases h
      exact (Bool.or_false _).symm
    next rest' hne h =>
      cases h
      rw [afterWord_hyphen hne]
      rfl
    next h => cases h

theorem spellsMark_iff (cs : List Char) :
    (∃ mark rest, cs = mark ++ rest ∧ SpellsMark mark) ↔
      ((afterWord "<auto-generated".toList cs).isSome ||
        (afterWord "<autogenerated".toList cs).isSome) = true := by
  rw [Bool.or_eq_true, isSome_afterWord_iff rfl, isSome_afterWord_iff rfl]
  simp only [SpellsMark, and_or_left, exists_or]

/-- The mark starts with no blank. -/
theorem SpellsMark.isBlank_head {mark : List Char} (h : SpellsMark mark) (rest : List Char) :
    ∀ c ∈ (mark ++ rest).head?, isBlank c = false := by
  have hfirst {word : List Char} (h : Spells ('<' :: word) mark) :
      ∀ c ∈ (mark ++ rest).head?, isBlank c = false := by
    cases h with
    | cons hvariant _ =>
      rintro c ⟨⟩
      rw [hvariant.eq_of_toUpper rfl]
      rfl
  exact h.elim hfirst hfirst

theorem startsWithMark_iff (cs : List Char) : startsWithMark cs = true ↔ OpensWithMark cs := by
  constructor
  · intro h
    have hslashes : ∃ rest, trimStart cs = '/' :: '/' :: rest := by
      rw [startsWithMark] at h
      split at h
      next rest hrest => exact ⟨rest, hrest⟩
      next => cases h
    obtain ⟨text, hslashes⟩ := hslashes
    rw [startsWithMark_of_slashes hslashes, ← spellsMark_iff] at h
    obtain ⟨mark, rest, hrest, hmark⟩ := h
    obtain ⟨blanks, hblanks, hcs⟩ := exists_blanks_append_trimStart cs
    obtain ⟨blanks', hblanks', htext⟩ := exists_blanks_append_trimStart text
    refine ⟨blanks, blanks', mark, rest, ?_, hblanks, hblanks', hmark⟩
    rw [← hrest, ← htext, ← hslashes, ← hcs]
  · rintro ⟨blanks, blanks', mark, rest, rfl, hblanks, hblanks', hmark⟩
    have hslash : ∀ c ∈ ('/' :: '/' :: (blanks' ++ (mark ++ rest))).head?, isBlank c = false := by
      rintro c ⟨⟩
      rfl
    rw [startsWithMark_of_slashes (trimStart_append hblanks hslash),
      trimStart_append hblanks' (hmark.isBlank_head rest), ← spellsMark_iff]
    exact ⟨mark, rest, rfl, hmark⟩

theorem someLine_startsWithMark_iff (cs : List Char) :
    someLine startsWithMark true cs = true ↔ HasMark cs := by
  rw [someLine_iff, HasMark]
  simp [startsWithMark_iff]

/-- **The ending of the path and the header decide.** A source is generated exactly if its path has
one of the endings, or a mark stands in its header from the start of a line on. What follows the
twentieth line break does not count. -/
theorem isGenerated_iff_ending_or_mark (path source : String) :
    (isGenerated path source = true ↔
      HasEnding path ∨ ∃ head, IsHeader source.toList head ∧ HasMark head) ∧
    ∀ kept rest rest' : String, 20 ≤ kept.toList.count '\n' →
      isGenerated path (kept ++ rest) = isGenerated path (kept ++ rest') := by
  constructor
  · simp only [isGenerated, Bool.or_eq_true, hasGeneratedEnding_iff, someLine_startsWithMark_iff,
      isHeader_iff, exists_eq_left']
  · intro kept rest rest' hkept
    rw [isGenerated, isGenerated, header_append hkept, header_append hkept]

/-- A mark right after the twentieth line break counts as little as none. -/
theorem isGenerated_iff_ending_or_mark_late :
    let breaks := String.ofList (List.replicate 20 '\n')
    20 ≤ breaks.toList.count '\n' ∧
      isGenerated "A.cs" (breaks ++ "// <auto-generated>") = isGenerated "A.cs" (breaks ++ "") :=
  ⟨by decide, (isGenerated_iff_ending_or_mark "A.cs" "").2 _ _ _ (by decide)⟩

end Source

end ViewLint
