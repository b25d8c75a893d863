import Mathlib.Data.List.Infix
import ViewLint.Proofs.QualifiedName.Generics
import ViewLint.Proofs.Text.Slice

/-!
# The first group of generic arguments

The first group of a name is dropped, and nothing else but the blanks around it. Groups are told by
counting: the brackets of a group are balanced at its end and at no place before. The scan for the
end of a group counts the brackets that are open, and the count after any part of the text is the
number of brackets opened in it less the number closed.

The name can also be cut at byte offsets, with a counter that must not fall below zero and cuts
that must not fall into a character. No text leads to such a fault.

## Main definitions

* `QualifiedName.StaysOpen`, `QualifiedName.IsGroup`: texts with an open bracket, and groups.
* `QualifiedName.Fault`: what can go wrong on bytes.
* `QualifiedName.stripBytes`: a name without its first group, cut at byte offsets.

## Main results

* `QualifiedName.afterGroup_cons`, `QualifiedName.afterGroup_of_count`: the number of open brackets
  after a character and after a text.
* `QualifiedName.stripBytes_eq_ok`: cutting at byte offsets meets no fault.
* `QualifiedName.stripGenerics_drops_first`: what is dropped from a name.
-/

namespace ViewLint.QualifiedName

open Text

/-! ### Open brackets -/

/-- The brackets of no part of the text, from its start on, are balanced. -/
def StaysOpen (cs : List Char) : Prop :=
  ∀ p, p <+: cs → p ≠ [] → p.count '<' ≠ p.count '>'

/-- A group: it starts with a bracket, and its brackets are balanced first at its end. -/
structure IsGroup (g : List Char) : Prop where
  opens : g.head? = some '<'
  balanced : g.count '<' = g.count '>'
  first : ∀ p, p <+: g → p ≠ [] → p ≠ g → p.count '<' ≠ p.count '>'

instance (cs : List Char) : Decidable (StaysOpen cs) :=
  decidable_of_iff (∀ p ∈ cs.inits, p ≠ [] → p.count '<' ≠ p.count '>') (by
    simp only [List.mem_inits, StaysOpen])

instance (g : List Char) : Decidable (IsGroup g) :=
  decidable_of_iff (g.head? = some '<' ∧ g.count '<' = g.count '>' ∧
      ∀ p ∈ g.inits, p ≠ [] → p ≠ g → p.count '<' ≠ p.count '>') (by
    simp only [List.mem_inits]
    exact ⟨fun ⟨hopens, hbalanced, hfirst⟩ => ⟨hopens, hbalanced, hfirst⟩,
      fun h => ⟨h.opens, h.balanced, h.first⟩⟩)

/-- One character opens a bracket, closes one, or does neither. The scan goes on unless it closes
the first one. -/
theorem afterGroup_cons {depth : Nat} {c : Char}
    (h : [c].count '>' ≤ depth + [c].count '<') (rest : List Char) :
    afterGroup (depth + 1) (c :: rest) =
      afterGroup (depth + [c].count '<' - [c].count '>' + 1) rest := by
  by_cases hopen : c = '<'
  · subst hopen
    rfl
  · by_cases hclose : c = '>'
    · subst hclose
      cases depth with
      | zero => exact absurd h (by decide)
      | succ depth =>
        rw [afterGroup, if_neg (by omega)]
        rfl
    · have hnone : [c].count '<' = 0 ∧ [c].count '>' = 0 := by simp [hopen, hclose]
      rw [hnone.1, hnone.2, afterGroup]
      · rfl
      · exact hopen
      · exact hclose

/-- The number of open brackets after a text is the number before it, with those opened in the text
added and those closed in it subtracted. The scan goes on while the first one is not closed. -/
theorem afterGroup_of_count {depth : Nat} {inside : List Char}
    (h : ∀ p, p <+: inside → p.count '>' ≤ depth + p.count '<') (rest : List Char) :
    afterGroup (depth + 1) (inside ++ rest) =
      afterGroup (depth + inside.count '<' - inside.count '>' + 1) rest := by
  induction inside generalizing depth with
  | nil => rfl
  | cons c inside ih =>
    have hcount (x : Char) (p : List Char) : (c :: p).count x = [c].count x + p.count x := by
      rw [← List.count_append, List.singleton_append]
    have hfirst : [c].count '>' ≤ depth + [c].count '<' := h [c] ⟨inside, rfl⟩
    have hothers : ∀ p, p <+: inside →
        p.count '>' ≤ depth + [c].count '<' - [c].count '>' + p.count '<' := by
      intro p hp
      have hcons := h (c :: p) (List.cons_prefix_cons.mpr ⟨rfl, hp⟩)
      rw [hcount '>' p, hcount '<' p] at hcons
      omega
    rw [List.cons_append, afterGroup_cons hfirst, ih hothers, hcount '<' inside,
      hcount '>' inside]
    congr 1
    omega

/-- While the first bracket stays open, no more brackets are closed than are opened after it. -/
theorem StaysOpen.count_le {cs p : List Char} (h : StaysOpen ('<' :: cs)) (hp : p <+: cs) :
    p.count '>' ≤ p.count '<' := by
  induction p using List.reverseRecOn with
  | nil => exact Nat.le_refl 0
  | append_singleton p c ih =>
    have hle := ih ((List.prefix_append p [c]).trans hp)
    have hone : [c].count '>' ≤ 1 := List.count_le_length
    have hne := h ('<' :: (p ++ [c])) (List.cons_prefix_cons.mpr ⟨rfl, hp⟩) (List.cons_ne_nil _ _)
    rw [List.count_cons_self, List.count_cons_of_ne (by decide), List.count_append,
      List.count_append] at hne
    rw [List.count_append, List.count_append]
    omega

/-- The scan does not end while the first bracket stays open. -/
theorem StaysOpen.afterGroup_append {inside : List Char} (h : StaysOpen ('<' :: inside))
    (rest : List Char) :
    afterGroup 1 (inside ++ rest) =
      afterGroup (inside.count '<' - inside.count '>' + 1) rest := by
  have hle : ∀ p, p <+: inside → p.count '>' ≤ 0 + p.count '<' := by
    intro p hp
    rw [Nat.zero_add]
    exact h.count_le hp
  have hrun := afterGroup_of_count hle rest
  rwa [Nat.zero_add, Nat.zero_add] at hrun

/-- A group is a bracket that stays open up to the last character, which closes it. -/
theorem IsGroup.exists_inside {g : List Char} (h : IsGroup g) :
    ∃ inside, g = '<' :: (inside ++ ['>']) ∧ StaysOpen ('<' :: inside) ∧
      inside.count '<' = inside.count '>' := by
  obtain ⟨cs, rfl⟩ := List.head?_eq_some_iff.mp h.opens
  have hbalanced := h.balanced
  rw [List.count_cons_self, List.count_cons_of_ne (by decide)] at hbalanced
  rcases List.eq_nil_or_concat cs with rfl | ⟨inside, c, rfl⟩
  · simp at hbalanced
  · rw [List.concat_eq_append] at h hbalanced ⊢
    have hopen : StaysOpen ('<' :: inside) := by
      intro p hp hne
      refine h.first p (hp.trans ?_) hne ?_
      · exact List.cons_prefix_cons.mpr ⟨rfl, List.prefix_append inside [c]⟩
      · rintro rfl
        have hlength := hp.length_le
        simp only [List.length_cons, List.length_append, List.length_nil] at hlength
        omega
    -- Before the last character the first bracket is open, so this character closes it.
    have hle := hopen.count_le (List.prefix_refl inside)
    have hone : [c].count '>' ≤ 1 := List.count_le_length
    rw [List.count_append, List.count_append] at hbalanced
    obtain rfl : '>' = c := List.mem_singleton.mp (List.count_pos_iff.mp (by omega))
    exact ⟨inside, rfl, hopen, by omega⟩

section Strip

variable {head : List Char} (hhead : ∀ c ∈ head, opensGenerics c = false)

include hhead

/-- The first group is dropped with the blanks around it. -/
theorem stripGenerics_group {group : List Char} (h : IsGroup group) (suffix : List Char) :
    stripGenerics (head ++ group ++ suffix) = trimEnd head ++ trim suffix := by
  obtain ⟨inside, rfl, hopen, hcount⟩ := h.exists_inside
  have hafter : afterGroup 1 (inside ++ '>' :: suffix) = some suffix := by
    rw [hopen.afterGroup_append, hcount, Nat.sub_self, afterGroup, if_pos (Nat.le_refl 1)]
  have hstrip := stripGenerics_bracket hhead (inside ++ '>' :: suffix)
  rw [hafter, Option.getD_some] at hstrip
  rw [← hstrip]
  simp

/-- Nothing remains of a bracket that is never closed, nor of what follows it. -/
theorem stripGenerics_unclosed {cs : List Char} (h : StaysOpen ('<' :: cs)) :
    stripGenerics (head ++ '<' :: cs) = trimEnd head := by
  have hafter : afterGroup 1 cs = none := by
    have hrun := h.afterGroup_append []
    rwa [List.append_nil] at hrun
  rw [stripGenerics_bracket hhead, hafter, Option.getD_none]
  exact List.append_nil _

end Strip

/-! ### Byte offsets -/

/-- What can go wrong when a name is cut at byte offsets. -/
inductive Fault where
  /-- A counter falls below zero. -/
  | underflow
  /-- A cut falls into a character or beyond the text. -/
  | noBoundary
deriving DecidableEq, Repr

/-- The byte offset of the first character with a property, when the text starts at `offset`. -/
def offsetOf? (p : Char → Bool) (offset : Nat) : List Char → Option Nat
  | [] => none
  | c :: cs => if p c then some offset else offsetOf? p (offset + c.utf8Size) cs

/-- The byte offset of the bracket that closes the first of `depth` open ones, when the text starts
at `offset`. -/
def closing? (offset depth : Nat) : List Char → Except Fault (Option Nat)
  | [] => .ok none
  | '<' :: cs => closing? (offset + '<'.utf8Size) (depth + 1) cs
  | '>' :: cs =>
    match depth with
    | 0 => .error .underflow
    | 1 => .ok (some offset)
    | depth + 1 => closing? (offset + '>'.utf8Size) depth cs
  | c :: cs => closing? (offset + c.utf8Size) depth cs

/-- The two parts of a text at a byte offset. -/
def cutAt (text : String) (offset : Nat) : Except Fault (String × String) :=
  if String.Pos.Raw.IsValid text ⟨offset⟩ then
    .ok (sliceBytes text 0 offset, sliceBytes text offset text.utf8ByteSize)
  else .error .noBoundary

/-- What follows the first group or the first arity, when the text starts with it. -/
def suffixBytes (rest : String) : Except Fault String := do
  if rest.toList.head? = some (Char.ofNat 0x60) then
    let (_, digits) ← cutAt rest 1
    return String.ofList (digits.toList.dropWhile Char.isDigit)
  else
    match ← closing? 0 0 rest.toList with
    | some offset =>
      let (_, suffix) ← cutAt rest (offset + 1)
      return suffix
    | none => return ""

/-- A name without its first group of generic arguments or its first arity, cut at byte offsets. -/
def stripBytes (text : String) : Except Fault String :=
  match offsetOf? opensGenerics 0 text.toList with
  | none => .ok text
  | some start => do
    let (head, rest) ← cutAt text start
    let suffix ← suffixBytes rest
    return String.ofList (trimEnd head.toList ++ trim suffix.toList)

theorem utf8ByteSize_ofList_cons (c : Char) (cs : List Char) :
    (String.ofList (c :: cs)).utf8ByteSize = c.utf8Size + (String.ofList cs).utf8ByteSize := by
  rw [String.ofList_cons, String.utf8ByteSize_append, String.utf8ByteSize_singleton]

theorem offsetOf?_append {p : Char → Bool} {head : List Char} (hhead : ∀ c ∈ head, p c = false)
    {c : Char} (hc : p c = true) (offset : Nat) (cs : List Char) :
    offsetOf? p offset (head ++ c :: cs) =
      some (offset + (String.ofList head).utf8ByteSize) := by
  induction head generalizing offset with
  | nil => simp [offsetOf?, hc]
  | cons d head ih =>
    rw [List.forall_mem_cons] at hhead
    rw [List.cons_append, offsetOf?, if_neg (by simp [hhead.1]), ih hhead.2,
      utf8ByteSize_ofList_cons, Nat.add_assoc]

theorem offsetOf?_eq_none {p : Char → Bool} {cs : List Char} (h : ∀ c ∈ cs, p c = false)
    (offset : Nat) : offsetOf? p offset cs = none := by
  induction cs generalizing offset with
  | nil => rfl
  | cons c cs ih =>
    rw [List.forall_mem_cons] at h
    rw [offsetOf?, if_neg (by simp [h.1]), ih h.2]

/-- A cut where the first part of a text stops is no fault. -/
theorem cutAt_append (before after : String) :
    cutAt (before ++ after) before.utf8ByteSize = .ok (before, after) := by
  have hvalid : String.Pos.Raw.IsValid (before ++ after) ⟨before.utf8ByteSize⟩ :=
    String.Pos.Raw.isValid_iff_exists_append.mpr ⟨before, after, rfl, rfl⟩
  rw [cutAt, if_pos hvalid, sliceBytes_zero_append, sliceBytes_append_size]

/-- A cut between two characters is no fault. -/
theorem cutAt_ofList (cs ds : List Char) {offset : Nat}
    (h : offset = (String.ofList cs).utf8ByteSize) :
    cutAt (String.ofList (cs ++ ds)) offset = .ok (String.ofList cs, String.ofList ds) := by
  rw [h, String.ofList_append, cutAt_append]

/-- What follows a group stands at the end of the text. -/
theorem isSuffix_of_afterGroup {depth : Nat} {cs rest : List Char}
    (h : afterGroup depth cs = some rest) : rest <:+ cs := by
  fun_induction afterGroup depth cs with
  | case1 => cases h
  | case2 depth cs ih => exact (ih h).trans (List.suffix_cons '<' cs)
  | case3 depth cs hdepth =>
    rw [← Option.some.inj h]
    exact List.suffix_cons '>' cs
  | case4 depth cs hdepth ih => exact (ih h).trans (List.suffix_cons '>' cs)
  | case5 depth c cs _ _ ih => exact (ih h).trans (List.suffix_cons c cs)

/-- While a bracket is open, the counter does not fall below zero. The scan ends at the bracket
before what follows the group. -/
theorem closing?_eq_ok (offset depth : Nat) (cs : List Char) :
    closing? offset (depth + 1) cs =
      .ok ((afterGroup (depth + 1) cs).map fun rest =>
        offset + (String.ofList cs).utf8ByteSize - ((String.ofList rest).utf8ByteSize + 1)) := by
  induction cs generalizing offset depth with
  | nil => rfl
  | cons c cs ih =>
    rw [utf8ByteSize_ofList_cons, ← Nat.add_assoc]
    by_cases hopen : c = '<'
    · subst hopen
      rw [closing?, afterGroup, ih]
    · by_cases hclose : c = '>'
      · subst hclose
        cases depth with
        | zero =>
          have hsize : '>'.utf8Size = 1 := rfl
          rw [closing?, afterGroup, if_pos (Nat.le_refl 1), Option.map_some, hsize]
          congr 2
          omega
        | succ depth =>
          rw [closing?, afterGroup, if_neg (by omega), Nat.add_sub_cancel, ih]
          exact Nat.succ_ne_zero depth
      · rw [closing?, afterGroup, ih]
        · exact hopen
        · exact hclose
        · exact hopen
        · exact hclose

/-- After a bracket, what follows its group is found without a fault. -/
theorem suffixBytes_bracket (cs : List Char) :
    suffixBytes (String.ofList ('<' :: cs)) = .ok (String.ofList ((afterGroup 1 cs).getD [])) := by
  have hscan : closing? 0 0 ('<' :: cs) = closing? 1 (0 + 1) cs := rfl
  have hmark : ('<' :: cs).head? ≠ some (Char.ofNat 0x60) := by simp
  rw [suffixBytes, String.toList_ofList, if_neg hmark, hscan, closing?_eq_ok]
  cases hafter : afterGroup 1 cs with
  | none => rfl
  | some rest =>
    obtain ⟨inside, rfl⟩ := isSuffix_of_afterGroup hafter
    have hoffset : 1 + (String.ofList (inside ++ rest)).utf8ByteSize -
        ((String.ofList rest).utf8ByteSize + 1) + 1 =
          (String.ofList ('<' :: inside)).utf8ByteSize := by
      have hsize : '<'.utf8Size = 1 := rfl
      rw [utf8ByteSize_ofList_cons, String.ofList_append, String.utf8ByteSize_append, hsize]
      omega
    have hcut := cutAt_ofList ('<' :: inside) rest hoffset
    rw [List.cons_append] at hcut
    simp only [Option.map_some, Option.getD_some]
    show (cutAt _ _ >>= _) = _
    rw [hcut]
    rfl

/-- After the mark of an arity, what follows its digits is found without a fault. -/
theorem suffixBytes_mark (cs : List Char) :
    suffixBytes (String.ofList (Char.ofNat 0x60 :: cs)) =
      .ok (String.ofList (cs.dropWhile Char.isDigit)) := by
  have hmark : (Char.ofNat 0x60 :: cs).head? = some (Char.ofNat 0x60) := rfl
  have hcut : cutAt (String.ofList (Char.ofNat 0x60 :: cs)) 1 =
      .ok (String.ofList [Char.ofNat 0x60], String.ofList cs) :=
    cutAt_ofList [Char.ofNat 0x60] cs rfl
  rw [suffixBytes, String.toList_ofList, if_pos hmark, hcut]
  show Except.ok _ = _
  rw [String.toList_ofList]

/-- Cutting a name at byte offsets meets no fault: the counter never falls below zero, and no cut
falls into a character. The name is the same. -/
theorem stripBytes_eq_ok (text : String) :
    stripBytes text = .ok (String.ofList (stripGenerics text.toList)) := by
  cases hfind : text.toList.find? opensGenerics with
  | none =>
    have hplain : ∀ c ∈ text.toList, opensGenerics c = false := by
      simpa using List.find?_eq_none.mp hfind
    rw [stripBytes, offsetOf?_eq_none hplain, stripGenerics_of_forall hplain, String.ofList_toList]
  | some c =>
    obtain ⟨hc, head, cs, htext, hnot⟩ := List.find?_eq_some_iff_append.mp hfind
    have hhead : ∀ c ∈ head, opensGenerics c = false := by simpa using hnot
    have hcut : cutAt text (0 + (String.ofList head).utf8ByteSize) =
        .ok (String.ofList head, String.ofList (c :: cs)) := by
      rw [← String.ofList_toList (s := text), htext, cutAt_ofList head (c :: cs) (Nat.zero_add _)]
    rw [stripBytes, htext, offsetOf?_append hhead hc]
    show (cutAt _ _ >>= _) = _
    rw [hcut]
    show (suffixBytes _ >>= _) = _
    rcases (show c = '<' ∨ c = Char.ofNat 0x60 by simpa [opensGenerics] using hc) with rfl | rfl
    · rw [suffixBytes_bracket, stripGenerics_bracket hhead]
      show Except.ok _ = _
      rw [String.toList_ofList, String.toList_ofList]
    · rw [suffixBytes_mark, stripGenerics_mark hhead]
      show Except.ok _ = _
      rw [String.toList_ofList, String.toList_ofList]

/-- **Only the first group is dropped.** After a head without generic arguments, a group is
dropped with the blanks around it, whatever stands inside it and after it. So is an arity, and
nothing remains after a bracket that is never closed. On every text, the counter of open brackets
never falls below zero, and every cut falls between two characters. -/
theorem stripGenerics_drops_first (head : List Char) (text : String) :
    ((∀ c ∈ head, opensGenerics c = false) →
      (∀ group suffix, IsGroup group →
        stripGenerics (head ++ group ++ suffix) = trimEnd head ++ trim suffix) ∧
      (∀ digits suffix, (∀ c ∈ digits, c.isDigit = true) →
        (∀ c ∈ suffix.head?, c.isDigit = false) →
        stripGenerics (head ++ Char.ofNat 0x60 :: (digits ++ suffix)) =
          trimEnd head ++ trim suffix) ∧
      ∀ rest, StaysOpen ('<' :: rest) → stripGenerics (head ++ '<' :: rest) = trimEnd head) ∧
    stripBytes text = .ok (String.ofList (stripGenerics text.toList)) := by
  refine ⟨fun hhead => ⟨?_, ?_, ?_⟩, stripBytes_eq_ok text⟩
  · intro group suffix hgroup
    exact stripGenerics_group hhead hgroup suffix
  · intro digits suffix hdigits hsuffix
    exact stripGenerics_arity hhead hdigits hsuffix
  · intro rest hrest
    exact stripGenerics_unclosed hhead hrest

/-- A closing bracket before the first group, groups inside it and one after it. Both faults can be
met, by a scan that starts with no open bracket and by a cut inside a character. -/
theorem stripGenerics_drops_first_nested :
    let head := "é> ".toList
    IsGroup "<K<é>, `2>".toList ∧ StaysOpen "<K<é>".toList ∧
      stripGenerics (head ++ "<K<é>, `2>".toList ++ " []<x>".toList) = "é>[]<x>".toList ∧
      stripGenerics (head ++ Char.ofNat 0x60 :: ("12".toList ++ " []<x>".toList)) =
        "é>[]<x>".toList ∧
      stripGenerics (head ++ "<K<é>".toList) = "é>".toList ∧
      stripBytes "é> <K<é>, `2> []<x>" = .ok "é>[]<x>" ∧
      closing? 0 0 head = .error .underflow ∧ cutAt "é>" 1 = .error .noBoundary := by
  intro head
  have hhead : ∀ c ∈ head, opensGenerics c = false := by
    have hall : head.all (!opensGenerics ·) = true := by decide
    simpa using hall
  have hgroup : IsGroup "<K<é>, `2>".toList := by decide
  have hopen : StaysOpen "<K<é>".toList := by decide
  have hdigits : ∀ c ∈ "12".toList, c.isDigit = true := by
    have hall : "12".toList.all Char.isDigit = true := by decide
    exact List.all_eq_true.mp hall
  obtain ⟨hparts, hbytes⟩ := stripGenerics_drops_first head "é> <K<é>, `2> []<x>"
  obtain ⟨hdrop, harity, hunclosed⟩ := hparts hhead
  refine ⟨hgroup, hopen, ?_, ?_, ?_, ?_, rfl, by decide⟩
  · rw [hdrop _ _ hgroup]
    decide
  · rw [harity _ _ hdigits (by rintro c ⟨⟩; decide)]
    decide
  · exact (hunclosed "K<é>".toList hopen).trans (by decide)
  · rw [hbytes]
    decide

end ViewLint.QualifiedName
