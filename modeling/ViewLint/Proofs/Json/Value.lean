import ViewLint.Proofs.Json.Scalar

/-!
# Written values are read back

A value that nests no deeper than the reader goes, and whose numbers are natural numbers of 64 bits,
is read back from its written form without blanks. The reader takes at most two steps for each
character.

## Main definitions

* `Value.Readable`: the values that are read back, with the depth they need.
* `Value.ReadsBack`: the reader returns the value from its written form, whatever follows.

## Main results

* `Value.scanItems_compactItems`, `Value.scanMembers_compactMembers`: the loops over the items of an
  array and the members of an object.
* `Value.Readable.readsBack`: every readable value is read back.
* `Value.parse?_compact`: the whole text is read back.
-/

namespace ViewLint.Json

theorem skipBlanks_cons {c : Char} (h : isBlank c = false) (cs : List Char) :
    skipBlanks (c :: cs) = c :: cs := by
  rw [skipBlanks, List.dropWhile_cons_of_neg (by simp [h])]

namespace Value

/-- Whether a written value can start with the character. -/
def startsValue (c : Char) : Bool :=
  startsScalar c || c == '[' || c == '\x7b'

theorem isBlank_eq_false_of_startsValue {c : Char} (h : startsValue c = true) :
    isBlank c = false := by
  cases hblank : isBlank c with
  | false => rfl
  | true =>
    have hcases : c = ' ' ∨ c = '\n' ∨ c = '\t' ∨ c = '\r' := by
      simpa [isBlank, or_assoc] using hblank
    rcases hcases with rfl | rfl | rfl | rfl <;> cases h

/-- The values that nest at most to a depth, with numbers that are natural and have 64 bits. -/
inductive Readable : Nat → Value → Prop
  | scalar {depth : Nat} {v : Value} (h : v.Scalar) : Readable depth v
  | array {depth : Nat} {items : List Value} (h : ∀ v ∈ items, Readable depth v) :
    Readable (depth + 1) (.array items)
  | object {depth : Nat} {members : List (String × Value)}
    (h : ∀ m ∈ members, Readable depth m.2) : Readable (depth + 1) (.object members)

theorem Scalar.skipBlanks_append {v : Value} (h : v.Scalar) (rest : List Char) :
    skipBlanks (v.compactChars ++ rest) = v.compactChars ++ rest := by
  obtain ⟨c, cs, hchars, hc⟩ := h.exists_cons
  have hstart : startsValue c = true := by simp [startsValue, hc]
  rw [hchars, List.cons_append, skipBlanks_cons (isBlank_eq_false_of_startsValue hstart)]

theorem compactChars_object (members : List (String × Value)) :
    (Value.object members).compactChars = '\x7b' :: (compactMembers members ++ ['\x7d']) := by
  rw [compactChars]
  rfl

theorem Readable.exists_cons {depth : Nat} {v : Value} (h : Readable depth v) :
    ∃ c cs, v.compactChars = c :: cs ∧ startsValue c = true := by
  cases h with
  | scalar h =>
    obtain ⟨c, cs, hchars, hc⟩ := h.exists_cons
    exact ⟨c, cs, hchars, by simp [startsValue, hc]⟩
  | array => exact ⟨_, _, by rw [compactChars, List.cons_append], rfl⟩
  | object => exact ⟨_, _, compactChars_object _, rfl⟩

/-- The value is read from its written form, given two steps for each character. -/
def ReadsBack (depth : Nat) (v : Value) : Prop :=
  ∀ (steps : Nat) (rest : List Char), 2 * v.compactChars.length ≤ steps → EndsNumber rest →
    scanValue steps depth (v.compactChars ++ rest) = some (v, rest)

theorem Scalar.readsBack {v : Value} (h : v.Scalar) (depth : Nat) : v.ReadsBack depth := by
  intro steps rest hsteps hrest
  have hscan := h.scanScalar_eq hrest
  obtain ⟨c, cs, hchars, hc⟩ := h.exists_cons
  rw [hchars, List.length_cons] at hsteps
  obtain ⟨steps, rfl⟩ := Nat.exists_eq_add_one.mpr (show 0 < steps by omega)
  rw [scanValue, h.skipBlanks_append]
  rw [hchars, List.cons_append] at hscan ⊢
  split
  next h => cases h; cases hc
  next h => cases h; cases hc
  next => exact hscan

theorem compactItems_cons_cons (v w : Value) (vs : List Value) :
    compactItems (v :: w :: vs) = v.compactChars ++ ',' :: compactItems (w :: vs) := by
  rw [compactItems]
  simp

/-- The items of an array are read back up to its end. -/
theorem scanItems_compactItems {depth : Nat} (v : Value) (vs : List Value)
    (h : ∀ w ∈ v :: vs, w.ReadsBack depth) (steps : Nat) (rest : List Char)
    (hsteps : 2 * (compactItems (v :: vs)).length + 1 ≤ steps) :
    scanItems steps depth (compactItems (v :: vs) ++ ']' :: rest) = some (v :: vs, rest) := by
  induction vs generalizing v steps with
  | nil =>
    have hv := h v (List.mem_cons_self ..)
    obtain ⟨steps, rfl⟩ := Nat.exists_eq_add_one.mpr (show 0 < steps by omega)
    rw [compactItems] at hsteps ⊢
    simp only [scanItems, hv steps (']' :: rest) (by omega) rfl, skipBlanks_cons (c := ']') rfl,
      Option.bind_eq_bind, Option.bind_some, Option.pure_def]
  | cons w vs ih =>
    have hv := h v (List.mem_cons_self ..)
    obtain ⟨steps, rfl⟩ := Nat.exists_eq_add_one.mpr (show 0 < steps by omega)
    rw [compactItems_cons_cons, List.length_append, List.length_cons] at hsteps
    have hvs := ih w (fun u hu => h u (List.mem_cons_of_mem v hu)) steps (by omega)
    rw [compactItems_cons_cons, List.append_assoc, List.cons_append]
    simp only [scanItems, hv steps (',' :: (compactItems (w :: vs) ++ ']' :: rest)) (by omega) rfl,
      skipBlanks_cons (c := ',') rfl, hvs, Option.bind_eq_bind, Option.bind_some, Option.pure_def]

/-- A member of an object as it is written. -/
def memberChars (m : String × Value) : List Char :=
  quote m.1 ++ ':' :: m.2.compactChars

theorem compactMembers_singleton (m : String × Value) : compactMembers [m] = memberChars m := by
  rw [compactMembers, memberChars]

theorem compactMembers_cons_cons (m w : String × Value) (ms : List (String × Value)) :
    compactMembers (m :: w :: ms) = memberChars m ++ ',' :: compactMembers (w :: ms) := by
  rw [compactMembers, memberChars]
  simp

theorem memberChars_append (m : String × Value) (rest : List Char) :
    memberChars m ++ rest =
      '"' :: (m.1.toList.flatMap escape ++ '"' :: ':' :: (m.2.compactChars ++ rest)) := by
  rw [memberChars, List.append_assoc, List.cons_append, quote_append]

/-- The members of an object are read back up to its end. -/
theorem scanMembers_compactMembers {depth : Nat} (m : String × Value) (ms : List (String × Value))
    (h : ∀ w ∈ m :: ms, w.2.ReadsBack depth) (steps : Nat) (rest : List Char)
    (hsteps : 2 * (compactMembers (m :: ms)).length + 1 ≤ steps) :
    scanMembers steps depth (compactMembers (m :: ms) ++ '\x7d' :: rest) =
      some (m :: ms, rest) := by
  have hlength (w : String × Value) : w.2.compactChars.length ≤ (memberChars w).length := by
    rw [memberChars, List.length_append, List.length_cons]
    omega
  induction ms generalizing m steps with
  | nil =>
    have hv := h m (List.mem_cons_self ..)
    obtain ⟨steps, rfl⟩ := Nat.exists_eq_add_one.mpr (show 0 < steps by omega)
    rw [compactMembers_singleton] at hsteps ⊢
    have hvalue := hv steps ('\x7d' :: rest) (by have := hlength m; omega) rfl
    rw [memberChars_append]
    simp only [scanMembers, skipBlanks_cons (c := '"') rfl, scanString_flatMap_escape,
      skipBlanks_cons (c := ':') rfl, hvalue, skipBlanks_cons (c := '\x7d') rfl,
      Option.bind_eq_bind, Option.bind_some, Option.pure_def, String.ofList_toList]
  | cons w ms ih =>
    have hv := h m (List.mem_cons_self ..)
    obtain ⟨steps, rfl⟩ := Nat.exists_eq_add_one.mpr (show 0 < steps by omega)
    rw [compactMembers_cons_cons, List.length_append, List.length_cons] at hsteps
    have hvalue := hv steps (',' :: (compactMembers (w :: ms) ++ '\x7d' :: rest))
      (by have := hlength m; omega) rfl
    have hms := ih w (fun u hu => h u (List.mem_cons_of_mem _ hu)) steps (by omega)
    rw [compactMembers_cons_cons, List.append_assoc, List.cons_append, memberChars_append]
    simp only [scanMembers, skipBlanks_cons (c := '"') rfl, scanString_flatMap_escape,
      skipBlanks_cons (c := ':') rfl, hvalue, skipBlanks_cons (c := ',') rfl, hms,
      Option.bind_eq_bind, Option.bind_some, Option.pure_def, String.ofList_toList]

theorem exists_cons_compactItems {v : Value} {c : Char} {cs : List Char}
    (h : v.compactChars = c :: cs) (vs : List Value) : ∃ ds, compactItems (v :: vs) = c :: ds := by
  cases vs with
  | nil => exact ⟨cs, by rw [compactItems, h]⟩
  | cons w vs => exact ⟨_, by rw [compactItems_cons_cons, h, List.cons_append]⟩

theorem exists_cons_compactMembers (m : String × Value) (ms : List (String × Value)) :
    ∃ ds, compactMembers (m :: ms) = '"' :: ds := by
  cases ms with
  | nil => exact ⟨_, by rw [compactMembers_singleton, memberChars, quote, List.cons_append]; rfl⟩
  | cons w ms => exact ⟨_, by rw [compactMembers_cons_cons]; rfl⟩

theorem readsBack_array {depth : Nat} {items : List Value}
    (hreadable : ∀ v ∈ items, v.Readable depth) (h : ∀ v ∈ items, v.ReadsBack depth) :
    (Value.array items).ReadsBack (depth + 1) := by
  intro steps rest hsteps hrest
  have hlength : (Value.array items).compactChars.length = (compactItems items).length + 2 := by
    simp [compactChars]
  obtain ⟨steps, rfl⟩ := Nat.exists_eq_add_one.mpr (show 0 < steps by omega)
  cases items with
  | nil => rfl
  | cons v vs =>
    have hitems := scanItems_compactItems v vs h steps rest (by omega)
    obtain ⟨c, cs, hchars, hc⟩ := (hreadable v (List.mem_cons_self ..)).exists_cons
    obtain ⟨ds, hstart⟩ := exists_cons_compactItems hchars vs
    rw [compactChars, List.cons_append, List.cons_append, List.append_assoc,
      List.singleton_append]
    rw [hstart, List.cons_append] at hitems ⊢
    -- The first item keeps the array from being taken for an empty one.
    have hne : c ≠ ']' := by
      rintro rfl
      cases hc
    simp only [scanValue, skipBlanks_cons (c := '[') rfl,
      skipBlanks_cons (isBlank_eq_false_of_startsValue hc), hitems, Nat.add_one_ne_zero, if_false,
      Nat.add_sub_cancel, Option.map_some]
    split
    next h => exact absurd (List.cons.inj h).1 hne
    next => rfl

theorem readsBack_object {depth : Nat} {members : List (String × Value)}
    (h : ∀ m ∈ members, m.2.ReadsBack depth) : (Value.object members).ReadsBack (depth + 1) := by
  intro steps rest hsteps hrest
  rw [compactChars_object] at hsteps ⊢
  have hlength : 2 * (compactMembers members).length + 4 ≤ steps := by
    simpa [Nat.mul_add] using hsteps
  obtain ⟨steps, rfl⟩ := Nat.exists_eq_add_one.mpr (show 0 < steps by omega)
  cases members with
  | nil => rfl
  | cons m ms =>
    have hmembers := scanMembers_compactMembers m ms h steps rest (by omega)
    obtain ⟨ds, hstart⟩ := exists_cons_compactMembers m ms
    rw [List.cons_append, List.append_assoc, List.singleton_append]
    rw [hstart, List.cons_append] at hmembers ⊢
    simp only [scanValue, skipBlanks_cons (c := '\x7b') rfl, skipBlanks_cons (c := '"') rfl,
      hmembers, Nat.add_one_ne_zero, if_false, Nat.add_sub_cancel, Option.map_some]
    rfl

/-- Every readable value is read back. -/
theorem Readable.readsBack {depth : Nat} {v : Value} (h : Readable depth v) :
    v.ReadsBack depth := by
  induction h with
  | scalar h => exact h.readsBack _
  | array h ih => exact readsBack_array h ih
  | object h ih => exact readsBack_object ih

/-- A text is read back as the value that it was written from. -/
theorem parse?_compact {v : Value} (h : Readable maxDepth v) : parse? v.compact = some v := by
  have hscan := h.readsBack (2 * v.compactChars.length + 2) [] (by omega) rfl
  rw [List.append_nil] at hscan
  simp only [parse?, compact, String.toList_ofList, hscan]
  rfl

end Value

end ViewLint.Json
