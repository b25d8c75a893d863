import Mathlib.Data.Prod.Lex
import Mathlib.Order.Bounds.Defs
import Mathlib.Order.Monotone.Defs
import ViewLint.Text.Position

/-!
# Lines and columns are exact

The line of an offset counts the line breaks before it, and its column the bytes since the last of
them. Both are read from a table of the offsets at which lines start, by halving. The table is made
from characters; since no byte of another character looks like a line break, it is the table that
the bytes of the text give.

## Main definitions

* `bytes`, `breaksBelow`: the bytes of a text, and the line breaks below an offset.
* `StartsLine`: a line starts at an offset.
* `breakEnds`: the offsets after the line breaks among some bytes.
* `SearchResult.Tells`: what the result of a search tells about the table.
* `LineIndex.Brackets`: the part of the table that is still searched.

## Main results

* `lineStarts_eq_breakEnds`: the table of a text by its bytes.
* `LineIndex.tells_search`: the search ends with what is true of the table.
* `LineIndex.line_eq`, `LineIndex.isGreatest_start`: the line of an offset, and where it starts.
* `LineIndex.column_lt_word_iff`: which columns are words of 64 bits.
* `LineIndex.strictMono_position`: a later offset has a later position.
* `LineIndex.position_exact`: lines and columns are exact.
-/

namespace ViewLint.Text

/-! ### Line breaks among bytes -/

/-- The bytes of a text. -/
def bytes (source : String) : List UInt8 :=
  source.toUTF8.data.toList

/-- The byte that ends a line. -/
def lineBreak : UInt8 :=
  10

/-- The number of line breaks at positions below an offset. -/
def breaksBelow (source : String) (offset : Nat) : Nat :=
  ((bytes source).take offset).count lineBreak

/-- A line starts at the start of a text and after every line break. -/
def StartsLine (source : String) (p : Nat) : Prop :=
  p = 0 ∨ ∃ i, (bytes source)[i]? = some lineBreak ∧ p = i + 1

/-- The offsets after the line breaks among bytes of which the first stands at `offset`. -/
def breakEnds (offset : Nat) : List UInt8 → List Nat
  | [] => []
  | b :: bs =>
    if b = lineBreak then (offset + 1) :: breakEnds (offset + 1) bs else breakEnds (offset + 1) bs

theorem breakEnds_append (offset : Nat) (as bs : List UInt8) :
    breakEnds offset (as ++ bs) = breakEnds offset as ++ breakEnds (offset + as.length) bs := by
  induction as generalizing offset with
  | nil => rfl
  | cons b as ih =>
    rw [List.cons_append, breakEnds, breakEnds, ih, List.length_cons, Nat.add_assoc,
      Nat.add_comm 1]
    split <;> rfl

theorem mem_breakEnds {offset p : Nat} {bs : List UInt8} :
    p ∈ breakEnds offset bs ↔ ∃ i, bs[i]? = some lineBreak ∧ p = offset + i + 1 := by
  induction bs generalizing offset with
  | nil => simp [breakEnds]
  | cons b bs ih =>
    have hsplit : (∃ i, (b :: bs)[i]? = some lineBreak ∧ p = offset + i + 1) ↔
        (b = lineBreak ∧ p = offset + 1) ∨
          ∃ i, bs[i]? = some lineBreak ∧ p = offset + 1 + i + 1 := by
      constructor
      · rintro ⟨i, hi, rfl⟩
        cases i with
        | zero => exact Or.inl ⟨Option.some.inj hi, rfl⟩
        | succ i => exact Or.inr ⟨i, hi, by omega⟩
      · rintro (⟨rfl, rfl⟩ | ⟨i, hi, rfl⟩)
        · exact ⟨0, rfl, rfl⟩
        · exact ⟨i + 1, hi, by omega⟩
    rw [hsplit, breakEnds, ← ih]
    split <;> simp_all

theorem breakEnds_of_not_mem {bs : List UInt8} (offset : Nat) (h : lineBreak ∉ bs) :
    breakEnds offset bs = [] := by
  refine List.eq_nil_iff_forall_not_mem.mpr fun p hp => ?_
  obtain ⟨i, hi, -⟩ := mem_breakEnds.mp hp
  exact h (List.mem_of_getElem? hi)

theorem pairwise_lt_breakEnds (offset : Nat) (bs : List UInt8) :
    (breakEnds offset bs).Pairwise (· < ·) := by
  induction bs generalizing offset with
  | nil => exact .nil
  | cons b bs ih =>
    rw [breakEnds]
    split
    · refine .cons (fun p hp => ?_) (ih _)
      obtain ⟨i, -, rfl⟩ := mem_breakEnds.mp hp
      omega
    · exact ih _

/-- Up to an offset there end as many line breaks as there are below it. -/
theorem countP_breakEnds (offset n : Nat) (bs : List UInt8) :
    (breakEnds offset bs).countP (fun p => decide (p ≤ offset + n)) =
      (bs.take n).count lineBreak := by
  induction bs generalizing offset n with
  | nil => simp [breakEnds]
  | cons b bs ih =>
    cases n with
    | zero =>
      rw [List.take_zero, List.count_nil, List.countP_eq_zero]
      intro p hp
      obtain ⟨i, -, rfl⟩ := mem_breakEnds.mp hp
      rw [decide_eq_true_iff]
      omega
    | succ n =>
      have hoffset : offset + (n + 1) = offset + 1 + n := by omega
      rw [breakEnds, List.take_succ_cons, List.count_cons, hoffset, ← ih]
      by_cases hb : b = lineBreak
      · rw [if_pos hb, List.countP_cons, if_pos (by simp), if_pos (by simp [hb])]
      · rw [if_neg hb, if_neg (by simp [hb])]
        rfl

/-! ### Line breaks among characters -/

theorem bytes_eq_flatMap (source : String) :
    bytes source = source.toList.flatMap String.utf8EncodeChar := by
  rw [bytes, String.toUTF8_eq_toByteArray, ← String.utf8Encode_toList, List.utf8Encode,
    List.toList_data_toByteArray]

/-- A byte with its highest bit set is no line break. -/
theorem or_ne_lineBreak (x : UInt8) {m : UInt8} (hm : 128 ≤ m) : x ||| m ≠ lineBreak := by
  intro h
  have hle : m.toNat ≤ (x ||| m).toNat := by
    rw [UInt8.toNat_or]
    exact Nat.right_le_or
  rw [h] at hle
  exact absurd (Nat.le_trans (UInt8.le_iff_toNat_le.mp hm) hle) (by decide)

/-- No other character has the byte of a line break. -/
theorem lineBreak_not_mem_utf8EncodeChar {c : Char} (h : c ≠ '\n') :
    lineBreak ∉ String.utf8EncodeChar c := by
  have high (x : UInt8) {m : UInt8} (hm : 128 ≤ m) : lineBreak ≠ x ||| m :=
    (or_ne_lineBreak x hm).symm
  rcases Char.utf8Size_eq c with hsize | hsize | hsize | hsize
  · have hascii := UInt32.le_iff_toNat_le.mp (Char.utf8Size_eq_one_iff.mp hsize)
    rw [String.utf8EncodeChar_eq_singleton hsize, List.mem_singleton]
    intro hb
    have hval := congrArg UInt8.toNat hb
    rw [UInt32.toNat_toUInt8] at hval
    have hnewline : ('\n' : Char).val.toNat = 10 := rfl
    refine h (Char.ext (UInt32.toNat_inj.mp ?_))
    simp only [lineBreak, UInt8.reduceToNat, UInt32.reduceToNat] at hascii hval
    omega
  · simp [String.utf8EncodeChar_eq_cons_cons hsize, high]
  · simp [String.utf8EncodeChar_eq_cons_cons_cons hsize, high]
  · simp [String.utf8EncodeChar_eq_cons_cons_cons_cons hsize, high]

theorem lineStartsFrom_eq_breakEnds (offset : Nat) (cs : List Char) :
    lineStartsFrom offset cs = breakEnds offset (cs.flatMap String.utf8EncodeChar) := by
  induction cs generalizing offset with
  | nil => rfl
  | cons c cs ih =>
    rw [lineStartsFrom, ih, List.flatMap_cons, breakEnds_append, String.length_utf8EncodeChar]
    split
    next h =>
      subst h
      rfl
    next h => rw [breakEnds_of_not_mem _ (lineBreak_not_mem_utf8EncodeChar h), List.nil_append]

/-- The table of the lines of a text is given by its bytes. -/
theorem lineStarts_eq_breakEnds (source : String) :
    lineStarts source = 0 :: breakEnds 0 (bytes source) := by
  rw [lineStarts, lineStartsFrom_eq_breakEnds, bytes_eq_flatMap]

theorem mem_lineStarts {source : String} {p : Nat} :
    p ∈ lineStarts source ↔ StartsLine source p := by
  rw [lineStarts_eq_breakEnds, List.mem_cons, mem_breakEnds, StartsLine]
  simp only [Nat.zero_add]

theorem pairwise_lt_lineStarts (source : String) : (lineStarts source).Pairwise (· < ·) := by
  rw [lineStarts_eq_breakEnds]
  refine .cons (fun p hp => ?_) (pairwise_lt_breakEnds _ _)
  obtain ⟨i, -, rfl⟩ := mem_breakEnds.mp hp
  exact Nat.succ_pos _

/-- Up to an offset there start as many lines as there are line breaks below it, and one more. -/
theorem countP_lineStarts (source : String) (offset : Nat) :
    (lineStarts source).countP (fun p => decide (p ≤ offset)) = 1 + breaksBelow source offset := by
  have hbreaks := countP_breakEnds 0 offset (bytes source)
  rw [Nat.zero_add] at hbreaks
  rw [lineStarts_eq_breakEnds, List.countP_cons_of_pos (by simp), hbreaks, breaksBelow,
    Nat.add_comm]

theorem breaksBelow_le {source : String} {m n : Nat} (h : m ≤ n) :
    breaksBelow source m ≤ breaksBelow source n :=
  (List.take_sublist_take_left h).count_le lineBreak

theorem breaksBelow_le_self (source : String) (offset : Nat) :
    breaksBelow source offset ≤ offset :=
  Nat.le_trans List.count_le_length (List.length_take_le offset _)

/-! ### The search -/

/-- What the result of a search for an offset tells about an increasing table: the entry that was
found is the offset, or the entries before the index are below the offset and those from the index
on beyond it. -/
def SearchResult.Tells (starts : List Nat) (offset : Nat) : SearchResult → Prop
  | .found i => starts[i]? = some offset
  | .missing i => i ≤ starts.length ∧ (∀ p ∈ starts.take i, p < offset) ∧
    ∀ p ∈ starts.drop i, offset < p

namespace LineIndex

/-- The search for an offset has come to the part of the table from `lo` to `hi`: the entries before
this part are below the offset, those after it are beyond it. -/
structure Brackets (starts : List Nat) (offset lo hi : Nat) : Prop where
  lo_le_hi : lo ≤ hi
  hi_le_length : hi ≤ starts.length
  before_lt : ∀ p ∈ starts.take lo, p < offset
  lt_after : ∀ p ∈ starts.drop hi, offset < p

variable {starts : List Nat} {offset lo hi mid p q : Nat}

theorem take_succ_eq (hq : starts[mid]? = some q) :
    starts.take (mid + 1) = starts.take mid ++ [q] := by
  rw [List.take_add_one, hq, Option.toList_some]

/-- In an increasing table no entry up to an index is beyond the entry there. -/
theorem le_of_mem_take (hsorted : starts.Pairwise (· < ·)) (hq : starts[mid]? = some q)
    (hp : p ∈ starts.take (mid + 1)) : p ≤ q := by
  have hbelow := hsorted.sublist (List.take_sublist (mid + 1) starts)
  rw [take_succ_eq hq, List.pairwise_append] at hbelow
  rw [take_succ_eq hq, List.mem_append, List.mem_singleton] at hp
  rcases hp with hp | rfl
  · exact Nat.le_of_lt (hbelow.2.2 p hp q (List.mem_singleton.mpr rfl))
  · exact Nat.le_refl p

/-- In an increasing table every entry after an index is beyond the entry there. -/
theorem lt_of_mem_drop (hsorted : starts.Pairwise (· < ·)) (hq : starts[mid]? = some q)
    (hp : p ∈ starts.drop (mid + 1)) : q < p := by
  obtain ⟨hlen, rfl⟩ := List.getElem?_eq_some_iff.mp hq
  have hdrop := hsorted.sublist (List.drop_sublist mid starts)
  rw [List.drop_eq_getElem_cons hlen] at hdrop
  exact List.rel_of_pairwise_cons hdrop hp

/-- The part after an entry below the offset is searched on. -/
theorem Brackets.upper (h : Brackets starts offset lo hi) (hsorted : starts.Pairwise (· < ·))
    (hmid : mid < hi) (hq : starts[mid]? = some q) (hlt : q < offset) :
    Brackets starts offset (mid + 1) hi := by
  refine ⟨hmid, h.hi_le_length, fun p hp => ?_, h.lt_after⟩
  exact Nat.lt_of_le_of_lt (le_of_mem_take hsorted hq hp) hlt

/-- The part before an entry beyond the offset is searched on. -/
theorem Brackets.lower (h : Brackets starts offset lo hi) (hsorted : starts.Pairwise (· < ·))
    (hlo : lo ≤ mid) (hq : starts[mid]? = some q) (hlt : offset < q) :
    Brackets starts offset lo mid := by
  obtain ⟨hlen, hget⟩ := List.getElem?_eq_some_iff.mp hq
  refine ⟨hlo, Nat.le_of_lt hlen, h.before_lt, fun p hp => ?_⟩
  rw [List.drop_eq_getElem_cons hlen, hget] at hp
  rcases List.mem_cons.mp hp with rfl | hp
  · exact hlt
  · exact Nat.lt_trans hlt (lt_of_mem_drop hsorted hq hp)

/-- A search in an increasing table ends with a result that is true of the table. -/
theorem tells_search (hsorted : starts.Pairwise (· < ·)) (h : Brackets starts offset lo hi) :
    (search starts.toArray offset lo hi).Tells starts offset := by
  have hentry {mid : Nat} (hmid : mid < hi) :
      starts[mid]? = some (starts.toArray.getD mid 0) := by
    rw [Array.getD_eq_getD_getElem?, List.getElem?_toArray,
      List.getElem?_eq_getElem (Nat.lt_of_lt_of_le hmid h.hi_le_length), Option.getD_some]
  fun_induction search starts.toArray offset lo hi with
  | case1 lo hi hlt mid entry heq => exact heq ▸ hentry (by omega)
  | case2 lo hi hlt mid entry hne hbelow ih =>
    have hmid : mid < hi := by omega
    exact ih (h.upper hsorted hmid (hentry hmid) hbelow) hentry
  | case3 lo hi hlt mid entry hne hbelow ih =>
    have hmid : mid < hi := by omega
    exact ih (h.lower hsorted (by omega) (hentry hmid) (by omega))
      fun h => hentry (Nat.lt_trans h hmid)
  | case4 lo hi hnot =>
    obtain rfl : lo = hi := Nat.le_antisymm h.lo_le_hi (Nat.le_of_not_lt hnot)
    exact ⟨h.hi_le_length, h.before_lt, h.lt_after⟩

/-- The first `n` entries of the table are those up to the offset. -/
structure EndsUpTo (starts : List Nat) (offset n : Nat) : Prop where
  le_length : n ≤ starts.length
  before_le : ∀ p ∈ starts.take n, p ≤ offset
  lt_after : ∀ p ∈ starts.drop n, offset < p

/-- A table entry that is the offset is the last one up to it, so it is one of the entries that the
line counts. Where no entry is, the entries up to the offset are those below it. -/
theorem endsUpTo_line (source : String) (offset : Nat) :
    EndsUpTo (lineStarts source) offset ((ofSource source).line offset) := by
  have hsorted := pairwise_lt_lineStarts source
  have htells : (search (ofSource source).starts offset 0 (ofSource source).starts.size).Tells
      (lineStarts source) offset := by
    refine tells_search hsorted ⟨Nat.zero_le _, ?_, ?_, ?_⟩ <;> simp [ofSource]
  rw [line]
  generalize search (ofSource source).starts offset 0 (ofSource source).starts.size = result at *
  cases result with
  | found i =>
    obtain ⟨hlen, -⟩ := List.getElem?_eq_some_iff.mp htells
    exact ⟨hlen, fun p => le_of_mem_take hsorted htells, fun p => lt_of_mem_drop hsorted htells⟩
  | missing i =>
    obtain ⟨hlen, hbefore, hafter⟩ := htells
    exact ⟨hlen, fun p hp => Nat.le_of_lt (hbefore p hp), hafter⟩

/-! ### Lines and columns -/

/-- The line of an offset counts the line breaks below it. -/
theorem line_eq (source : String) (offset : Nat) :
    (ofSource source).line offset = 1 + breaksBelow source offset := by
  have h := endsUpTo_line source offset
  have hbefore : ((lineStarts source).take ((ofSource source).line offset)).countP
      (fun p => decide (p ≤ offset)) = (ofSource source).line offset := by
    rw [List.countP_eq_length.mpr (by simpa using h.before_le),
      List.length_take_of_le h.le_length]
  have hafter : ((lineStarts source).drop ((ofSource source).line offset)).countP
      (fun p => decide (p ≤ offset)) = 0 :=
    List.countP_eq_zero.mpr (by simpa using h.lt_after)
  rw [← countP_lineStarts, ← List.take_append_drop ((ofSource source).line offset)
    (lineStarts source), List.countP_append, hbefore, hafter, Nat.add_zero]

/-- The entry of the table for the line of an offset is the last start of a line up to it. -/
theorem isGreatest_start (source : String) (offset : Nat) :
    ∃ start, (ofSource source).starts[(ofSource source).line offset - 1]? = some start ∧
      IsGreatest {p | StartsLine source p ∧ p ≤ offset} start := by
  have h := endsUpTo_line source offset
  obtain ⟨k, hk⟩ : ∃ k, (ofSource source).line offset = k + 1 :=
    ⟨breaksBelow source offset, by rw [line_eq, Nat.add_comm]⟩
  rw [hk] at h ⊢
  obtain ⟨start, hstart⟩ : ∃ start, (lineStarts source)[k]? = some start :=
    ⟨_, List.getElem?_eq_getElem h.le_length⟩
  refine ⟨start, ?_, ⟨mem_lineStarts.mp (List.mem_of_getElem? hstart), h.before_le start ?_⟩, ?_⟩
  · rw [Nat.add_sub_cancel, ofSource, List.getElem?_toArray, hstart]
  · rw [take_succ_eq hstart]
    simp
  · rintro p ⟨hp, hle⟩
    rw [← mem_lineStarts, ← List.take_append_drop (k + 1) (lineStarts source),
      List.mem_append] at hp
    rcases hp with hp | hp
    · exact le_of_mem_take (pairwise_lt_lineStarts source) hstart hp
    · exact absurd (h.lt_after p hp) (Nat.not_lt.mpr hle)

theorem column_eq {source : String} {offset start : Nat}
    (h : (ofSource source).starts[(ofSource source).line offset - 1]? = some start) :
    (ofSource source).column offset = 1 + (offset - start) := by
  rw [column, Array.getD_eq_getD_getElem?, h, Option.getD_some, Nat.add_comm]

/-! ### Lines and columns as words -/

/-- There is a line break below an offset exactly if a line other than the first starts up to it. -/
theorem breaksBelow_pos_iff {source : String} {offset : Nat} :
    0 < breaksBelow source offset ↔ ∃ p, StartsLine source p ∧ 0 < p ∧ p ≤ offset := by
  rw [breaksBelow, List.count_pos_iff, List.mem_take_iff_getElem]
  constructor
  · rintro ⟨i, hi, hbreak⟩
    refine ⟨i + 1, .inr ⟨i, ?_, rfl⟩, Nat.succ_pos i, by omega⟩
    rw [← hbreak, List.getElem?_eq_getElem]
  · rintro ⟨p, rfl | ⟨i, hi, rfl⟩, hpos, hle⟩
    · omega
    · obtain ⟨hlen, hbreak⟩ := List.getElem?_eq_some_iff.mp hi
      exact ⟨i, by omega, hbreak⟩

/-- Below the last offset that is a word of 64 bits, the line is such a word too. -/
theorem line_lt_word (source : String) {offset : Nat} (h : offset + 1 < UInt64.size) :
    (ofSource source).line offset < UInt64.size := by
  rw [line_eq]
  have hbreaks := breaksBelow_le_self source offset
  omega

/-- Of an offset that is a word of 64 bits, the column is such a word too, unless the offset is the
last of them and stands on the first line. -/
theorem column_lt_word_iff (source : String) {offset : Nat} (h : offset < UInt64.size) :
    (ofSource source).column offset < UInt64.size ↔
      offset + 1 < UInt64.size ∨ 0 < breaksBelow source offset := by
  obtain ⟨start, hstart, ⟨hstarts, hle⟩, hgreatest⟩ := isGreatest_start source offset
  rw [column_eq hstart, breaksBelow_pos_iff]
  constructor
  · intro hlt
    rcases Nat.eq_zero_or_pos start with rfl | hpos
    · exact .inl (by omega)
    · exact .inr ⟨start, hstarts, hpos, hle⟩
  · rintro (hlt | ⟨p, hp, hpos, hple⟩)
    · omega
    · have hmax : p ≤ start := hgreatest ⟨hp, hple⟩
      omega

/-! ### Positions -/

/-- A later offset has a later position. -/
theorem strictMono_position (source : String) :
    StrictMono fun offset =>
      toLex ((ofSource source).line offset, (ofSource source).column offset) := by
  intro m n hmn
  rw [Prod.Lex.toLex_lt_toLex]
  have hle : (ofSource source).line m ≤ (ofSource source).line n := by
    rw [line_eq, line_eq]
    exact Nat.add_le_add_left (breaksBelow_le (Nat.le_of_lt hmn)) 1
  rcases Nat.lt_or_eq_of_le hle with hlt | heq
  · exact Or.inl hlt
  · -- On the same line both columns count from the same start.
    obtain ⟨start, hstart, hgreatest⟩ := isGreatest_start source m
    have hle : start ≤ m := hgreatest.1.2
    refine Or.inr ⟨heq, ?_⟩
    dsimp only
    rw [column_eq hstart, column_eq (heq ▸ hstart)]
    omega

end LineIndex

end ViewLint.Text
