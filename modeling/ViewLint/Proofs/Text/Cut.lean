import Mathlib.Data.List.TakeWhile
import ViewLint.Text.Blank
import ViewLint.Text.Cut

/-!
# Cutting and trimming texts in parts

## Main definitions

* `Tight`: a text neither starts nor ends with a blank.

## Main results

* `Tight.trim_eq`, `Tight.append`: nothing is trimmed from a text of tight parts.
* `exists_blanks_trim`: a text is its trimmed form between blanks.
* `apply_dropTails`: what does not see a text at the end does not see that its copies are dropped.
* `cutLast_append_cons`, `cutLast_append_of_mem`: where a text is cut at the last of a character.
-/

namespace ViewLint.Text

/-! ### Blanks at the ends -/

/-- A text neither starts nor ends with a blank. -/
structure Tight (cs : List Char) : Prop where
  head : ∀ c ∈ cs.head?, isBlank c = false
  last : ∀ c ∈ cs.getLast?, isBlank c = false

theorem Tight.nil : Tight [] :=
  ⟨by simp, by simp⟩

/-- A text without blanks is tight. -/
theorem Tight.of_forall {cs : List Char} (h : ∀ c ∈ cs, isBlank c = false) : Tight cs :=
  ⟨fun c hc => h c (List.mem_of_head? hc), fun c hc => h c (List.mem_of_getLast? hc)⟩

theorem Tight.singleton {c : Char} (hc : isBlank c = false) : Tight [c] :=
  .of_forall (by simpa using hc)

/-- A text between two characters that are not blank is tight with them. -/
theorem Tight.enclosed {c d : Char} (hc : isBlank c = false) (hd : isBlank d = false)
    (cs : List Char) : Tight (c :: (cs ++ [d])) := by
  constructor
  · rintro x ⟨⟩
    exact hc
  · intro x hx
    rw [← List.cons_append, List.getLast?_concat] at hx
    cases hx
    exact hd

theorem Tight.append {cs ds : List Char} (hcs : Tight cs) (hds : Tight ds) :
    Tight (cs ++ ds) := by
  constructor
  · intro c hc
    rw [List.head?_append] at hc
    cases hhead : cs.head? with
    | none => exact hds.head c (by simpa [hhead] using hc)
    | some d => exact hcs.head c (by simpa [hhead] using hc)
  · intro c hc
    rw [List.getLast?_append] at hc
    cases hlast : ds.getLast? with
    | none => exact hcs.last c (by simpa [hlast] using hc)
    | some d => exact hds.last c (by simpa [hlast] using hc)

theorem Tight.flatMap {α : Type} {f : α → List Char} {xs : List α}
    (h : ∀ x ∈ xs, Tight (f x)) : Tight (xs.flatMap f) := by
  induction xs with
  | nil => exact .nil
  | cons x xs ih =>
    rw [List.flatMap_cons]
    exact (h x List.mem_cons_self).append (ih fun y hy => h y (List.mem_cons_of_mem x hy))

theorem Tight.trimEnd_eq {cs : List Char} (h : Tight cs) : trimEnd cs = cs := by
  rw [trimEnd]
  cases hcs : cs.reverse with
  | nil => simpa using hcs.symm
  | cons c ds =>
    have hc : isBlank c = false := h.last c (by rw [← List.head?_reverse, hcs]; rfl)
    rw [List.dropWhile_cons_of_neg (by simp [hc]), ← hcs, List.reverse_reverse]

theorem Tight.trim_eq {cs : List Char} (h : Tight cs) : trim cs = cs := by
  have hstart : trimStart cs = cs := by
    cases cs with
    | nil => rfl
    | cons c cs => exact List.dropWhile_cons_of_neg (by simp [h.head c rfl])
  rw [trim, hstart, h.trimEnd_eq]

/-- Blanks in front of a text are trimmed. -/
theorem trim_blanks_append {blanks : List Char} (h : ∀ c ∈ blanks, isBlank c = true)
    (cs : List Char) : trim (blanks ++ cs) = trim cs := by
  rw [trim, trimStart, List.dropWhile_append_of_pos h]
  rfl

/-- Blanks after a text are trimmed. -/
theorem trim_append_blanks {blanks : List Char} (h : ∀ c ∈ blanks, isBlank c = true)
    (cs : List Char) : trim (cs ++ blanks) = trim cs := by
  have hend : ∀ ds, trimEnd (ds ++ blanks) = trimEnd ds := by
    intro ds
    rw [trimEnd, List.reverse_append, List.dropWhile_append_of_pos (by simpa using h)]
    rfl
  rw [trim, trim, trimStart, List.dropWhile_append, ← trimStart]
  split
  · next hempty =>
    rw [List.dropWhile_eq_nil_iff.mpr h, List.isEmpty_iff.mp hempty]
  · exact hend (trimStart cs)

/-- A text is what remains when it is trimmed, between blanks. -/
theorem exists_blanks_trim (cs : List Char) :
    ∃ before after, (∀ c ∈ before, isBlank c = true) ∧ (∀ c ∈ after, isBlank c = true) ∧
      cs = before ++ (trim cs ++ after) := by
  refine ⟨cs.takeWhile isBlank, ((trimStart cs).reverse.takeWhile isBlank).reverse, ?_, ?_, ?_⟩
  · exact List.all_eq_true.mp List.all_takeWhile
  · intro c hc
    exact List.all_eq_true.mp List.all_takeWhile c (List.mem_reverse.mp hc)
  · rw [trim, trimEnd, ← List.reverse_append, List.takeWhile_append_dropWhile,
      List.reverse_reverse, trimStart, List.takeWhile_append_dropWhile]

/-! ### Copies at the ends -/

theorem eq_append_of_afterHead {head text rest : List Char} (h : afterHead head text = some rest) :
    text = head ++ rest := by
  fun_induction afterHead head text with
  | case1 text => exact Option.some.inj h
  | case2 => cases h
  | case3 hs t ts ih => rw [ih h, List.cons_append]
  | case4 => cases h

/-- What is the same with and without a text in front is the same without its copies. -/
theorem apply_dropHeads {α : Type} {f : List Char → α} {head : List Char}
    (hf : ∀ rest, f (head ++ rest) = f rest) (text : List Char) :
    f (dropHeads head text) = f text := by
  fun_induction dropHeads head text with
  | case1 => rfl
  | case2 text hne rest hrest _ ih => rw [ih, eq_append_of_afterHead hrest, hf]
  | case3 => rfl

/-- What is the same with and without a text at the end is the same without its copies. -/
theorem apply_dropTails {α : Type} {f : List Char → α} {tail : List Char}
    (hf : ∀ text, f (text ++ tail) = f text) (text : List Char) :
    f (dropTails tail text) = f text := by
  have hreverse : ∀ rest, f (tail.reverse ++ rest).reverse = f rest.reverse := by
    intro rest
    rw [List.reverse_append, List.reverse_reverse, hf]
  have happly := apply_dropHeads (f := f ∘ List.reverse) hreverse text.reverse
  rwa [Function.comp_apply, Function.comp_apply, List.reverse_reverse] at happly

/-! ### Cuts at the last occurrence -/

theorem cutLast_eq_none {c : Char} {cs : List Char} (h : c ∉ cs) : cutLast c cs = none := by
  induction cs with
  | nil => rfl
  | cons d ds ih =>
    rw [List.mem_cons, not_or] at h
    rw [cutLast, ih h.2]
    exact if_neg (Ne.symm h.1)

theorem exists_cutLast {c : Char} {cs : List Char} (h : c ∈ cs) :
    ∃ a b, cutLast c cs = some (a, b) := by
  induction cs with
  | nil => exact absurd h List.not_mem_nil
  | cons d ds ih =>
    rw [cutLast]
    by_cases hds : c ∈ ds
    · obtain ⟨a, b, hab⟩ := ih hds
      exact ⟨d :: a, b, by rw [hab]⟩
    · have hd : d = c := ((List.mem_cons.mp h).resolve_right hds).symm
      exact ⟨[], ds, by rw [cutLast_eq_none hds]; exact if_pos hd⟩

/-- A text with the character in its second part is cut there. -/
theorem cutLast_append_of_mem {c : Char} {ds : List Char} (h : c ∈ ds) (cs : List Char) :
    cutLast c (cs ++ ds) = (cutLast c ds).map fun (a, b) => (cs ++ a, b) := by
  obtain ⟨a, b, hab⟩ := exists_cutLast h
  induction cs with
  | nil => rw [List.nil_append, hab]; rfl
  | cons d cs ih => rw [List.cons_append, cutLast, ih, hab]; rfl

/-- A text is cut at a character that does not occur after it. -/
theorem cutLast_append_cons {c : Char} {ds : List Char} (h : c ∉ ds) (cs : List Char) :
    cutLast c (cs ++ c :: ds) = some (cs, ds) := by
  rw [cutLast_append_of_mem List.mem_cons_self, cutLast, cutLast_eq_none h]
  simp

end ViewLint.Text
