import Mathlib.Data.List.TakeWhile
import ViewLint.Proofs.Text.Cut
import ViewLint.QualifiedName

/-!
# Dropping a group of generic arguments

## Main definitions

* `QualifiedName.Balanced`: a text in which every angle bracket has its partner.

## Main results

* `QualifiedName.afterGroup_append`: balanced text leaves the number of open brackets as it is.
* `QualifiedName.stripGenerics_arguments`, `QualifiedName.stripGenerics_arity`: the first group of
  arguments, or the first arity, is dropped with the blanks around it.
-/

namespace ViewLint.QualifiedName

open Text

/-- A text in which every angle bracket has its partner. -/
inductive Balanced : List Char → Prop
  | nil : Balanced []
  | cons {c : Char} {cs : List Char} (hopen : c ≠ '<') (hclose : c ≠ '>') (h : Balanced cs) :
      Balanced (c :: cs)
  | group {inside cs : List Char} (hinside : Balanced inside) (h : Balanced cs) :
      Balanced ('<' :: (inside ++ '>' :: cs))

/-- A text without angle brackets is balanced. -/
theorem Balanced.of_all {cs : List Char} (h : cs.all (fun c => c != '<' && c != '>') = true) :
    Balanced cs := by
  induction cs with
  | nil => exact .nil
  | cons c cs ih =>
    simp only [List.all_cons, Bool.and_eq_true, bne_iff_ne] at h
    exact .cons h.1.1 h.1.2 (ih h.2)

/-- Balanced text leaves the number of open brackets as it is. -/
theorem afterGroup_append {inside : List Char} (h : Balanced inside) (depth : Nat)
    (rest : List Char) :
    afterGroup (depth + 1) (inside ++ rest) = afterGroup (depth + 1) rest := by
  induction h generalizing depth rest with
  | nil => rfl
  | cons hopen hclose _ ih =>
    rw [List.cons_append, afterGroup, ih]
    · exact hopen
    · exact hclose
  | group _ _ ihinside ih =>
    -- One more bracket is open inside the group.
    rw [List.cons_append, afterGroup, List.append_assoc, ihinside, List.cons_append, afterGroup,
      if_neg (by omega), Nat.add_sub_cancel, ih]

section Strip

variable {head inside digits : List Char} (hhead : ∀ c ∈ head, opensGenerics c = false)

include hhead

theorem takeWhile_dropWhile_append {c : Char} (hc : opensGenerics c = true) (cs : List Char) :
    (head ++ c :: cs).takeWhile (!opensGenerics ·) = head ∧
      (head ++ c :: cs).dropWhile (!opensGenerics ·) = c :: cs := by
  have hhead' : ∀ c ∈ head, (!opensGenerics c) = true := by simpa using hhead
  rw [List.takeWhile_append_of_pos hhead', List.dropWhile_append_of_pos hhead',
    List.takeWhile_cons_of_neg (by simp [hc]), List.dropWhile_cons_of_neg (by simp [hc])]
  exact ⟨List.append_nil head, rfl⟩

/-- Nothing is dropped from a name without generic arguments. -/
theorem stripGenerics_of_forall : stripGenerics head = head := by
  rw [stripGenerics, List.dropWhile_eq_nil_iff.mpr (by simpa using hhead)]

/-- After an opening bracket, what follows the end of its group remains. -/
theorem stripGenerics_bracket (cs : List Char) :
    stripGenerics (head ++ '<' :: cs) = trimEnd head ++ trim ((afterGroup 1 cs).getD []) := by
  obtain ⟨htake, hdrop⟩ :=
    takeWhile_dropWhile_append hhead (show opensGenerics '<' = true by decide) cs
  rw [stripGenerics, htake, hdrop]
  rfl

/-- After the mark of an arity, what follows its digits remains. -/
theorem stripGenerics_mark (cs : List Char) :
    stripGenerics (head ++ Char.ofNat 0x60 :: cs) =
      trimEnd head ++ trim (cs.dropWhile Char.isDigit) := by
  obtain ⟨htake, hdrop⟩ :=
    takeWhile_dropWhile_append hhead (show opensGenerics (Char.ofNat 0x60) = true by decide) cs
  rw [stripGenerics, htake, hdrop]
  split
  next h => cases h
  next h => exact absurd (List.cons.inj h).1 (by decide)
  next h => rw [← (List.cons.inj h).2]

/-- The first group of arguments is dropped with the blanks around it. -/
theorem stripGenerics_arguments (h : Balanced inside) (rest : List Char) :
    stripGenerics (head ++ '<' :: (inside ++ '>' :: rest)) = trimEnd head ++ trim rest := by
  have hafter : afterGroup 1 (inside ++ '>' :: rest) = some rest := by
    rw [afterGroup_append h, afterGroup, if_pos (Nat.le_refl 1)]
  rw [stripGenerics_bracket hhead, hafter, Option.getD_some]

/-- The first arity is dropped with the blanks around it. -/
theorem stripGenerics_arity (hdigits : ∀ c ∈ digits, c.isDigit = true) {rest : List Char}
    (hrest : ∀ c ∈ rest.head?, c.isDigit = false) :
    stripGenerics (head ++ Char.ofNat 0x60 :: (digits ++ rest)) = trimEnd head ++ trim rest := by
  have hafter : (digits ++ rest).dropWhile Char.isDigit = rest := by
    rw [List.dropWhile_append_of_pos hdigits]
    cases rest with
    | nil => rfl
    | cons c rest => exact List.dropWhile_cons_of_neg (by simp [hrest c rfl])
  rw [stripGenerics_mark hhead, hafter]

end Strip

end ViewLint.QualifiedName
