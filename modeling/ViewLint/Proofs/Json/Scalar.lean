import ViewLint.Json.Value

/-!
# Written scalars are read back

A quoted string reads as the string it was written from, whatever characters it has, and the digits
of a natural number of 64 bits read as that number, unless what follows could go on with it.

## Main definitions

* `EndsNumber`: a text with which no number goes on.
* `Value.Scalar`: the scalars whose numbers are natural and have 64 bits.

## Main results

* `scanString_flatMap_escape`: escapes are undone.
* `NumberText.scan_toDigits`, `NumberText.digitsValue_toDigits`: digits are read back.
* `Value.Scalar.scanScalar_eq`: a written scalar is read back.
-/

namespace ViewLint.Json

/-! ### Strings -/

theorem hexDigit?_digitChar {n : Nat} (h : n < 16) : hexDigit? (Nat.digitChar n) = some n := by
  have hall : ∀ n < 16, hexDigit? (Nat.digitChar n) = some n := by decide
  exact hall n h

/-- The escape of a control character by its number stands for the character. -/
theorem scanEscape_control {c : Char} (h : c.toNat < 32) (rest : List Char) :
    scanEscape ('u' :: '0' :: '0' :: Nat.digitChar (c.toNat / 16) ::
      Nat.digitChar (c.toNat % 16) :: rest) = some (c, rest) := by
  have hhigh := hexDigit?_digitChar (n := c.toNat / 16) (by omega)
  have hlow := hexDigit?_digitChar (n := c.toNat % 16) (by omega)
  have hvalue : hex4? '0' '0' (Nat.digitChar (c.toNat / 16)) (Nat.digitChar (c.toNat % 16)) =
      some c.toNat := by
    have hzero : hexDigit? '0' = some 0 := rfl
    have hsum : (0 * 16 + 0) * 256 + c.toNat / 16 * 16 + c.toNat % 16 = c.toNat := by omega
    simp only [hex4?, hzero, hhigh, hlow, Option.bind_eq_bind, Option.bind_some, hsum]
    rfl
  have hnotLow : isLowSurrogate c.toNat = false := by simp [isLowSurrogate]; omega
  have hnotHigh : isHighSurrogate c.toNat = false := by simp [isHighSurrogate]; omega
  rw [scanEscape]
  simp only [hvalue, hnotLow, hnotHigh, Char.ofNat_toNat, Bool.false_eq_true, if_false]

theorem scanString_backslash {c : Char} {cs left : List Char}
    (h : scanEscape cs = some (c, left)) :
    scanString ('\\' :: cs) = (scanString left).map fun r => (c :: r.1, r.2) := by
  rw [scanString]
  split
  next hnone => rw [h] at hnone; cases hnone
  next d rest hsome =>
    obtain ⟨rfl, rfl⟩ : c = d ∧ left = rest := by simpa using h.symm.trans hsome
    rfl

theorem scanString_plain {c : Char} (hquote : c ≠ '"') (hbackslash : c ≠ '\\')
    (hcontrol : ¬ c.toNat < 32) (cs : List Char) :
    scanString (c :: cs) = (scanString cs).map fun r => (c :: r.1, r.2) := by
  rw [scanString.eq_4 _ _ (by simpa using hquote) (by simpa using hbackslash), if_neg hcontrol]

/-- An escaped character reads as the character. -/
theorem scanString_escape (c : Char) (cs : List Char) :
    scanString (escape c ++ cs) = (scanString cs).map fun r => (c :: r.1, r.2) := by
  have hnumber {n : Nat} (h : (c.toNat == n) = true) : c = Char.ofNat n := by
    rw [← beq_iff_eq.mp h, Char.ofNat_toNat]
  rw [escape]
  split
  next h => rw [beq_iff_eq.mp h]; exact scanString_backslash rfl
  next hquote =>
  split
  next h => rw [beq_iff_eq.mp h]; exact scanString_backslash rfl
  next hbackslash =>
  split
  next h => rw [beq_iff_eq.mp h]; exact scanString_backslash rfl
  next =>
  split
  next h => rw [beq_iff_eq.mp h]; exact scanString_backslash rfl
  next =>
  split
  next h => rw [beq_iff_eq.mp h]; exact scanString_backslash rfl
  next =>
  split
  next h => rw [hnumber h]; exact scanString_backslash rfl
  next =>
  split
  next h => rw [hnumber h]; exact scanString_backslash rfl
  next =>
  split
  next hcontrol => exact scanString_backslash (scanEscape_control hcontrol cs)
  next hcontrol =>
    exact scanString_plain (by simpa using hquote) (by simpa using hbackslash) hcontrol cs

/-- Escapes are undone, up to the closing quote. -/
theorem scanString_flatMap_escape (cs rest : List Char) :
    scanString (cs.flatMap escape ++ '"' :: rest) = some (cs, rest) := by
  induction cs with
  | nil => rw [List.flatMap_nil, List.nil_append, scanString]
  | cons c cs ih =>
    rw [List.flatMap_cons, List.append_assoc, scanString_escape, ih]
    rfl

theorem quote_append (s : String) (rest : List Char) :
    quote s ++ rest = '"' :: (s.toList.flatMap escape ++ '"' :: rest) := by
  simp [quote]

/-! ### Numbers -/

/-- No number goes on with this text. -/
def EndsNumber (rest : List Char) : Prop :=
  rest.head?.all fun c => !(c.isDigit || c == '.' || c == 'e' || c == 'E')

namespace NumberText

theorem digitsValue_toDigits (n : Nat) : digitsValue (Nat.toDigits 10 n) = n := by
  have hstep : (fun n d => n * 10 + digitValue d) =
      fun n (d : Char) => 10 * n + (d.toNat - '0'.toNat) := by
    funext n d
    rw [Nat.mul_comm, digitValue]
  rw [digitsValue, hstep, ← Nat.ofDigitChars_eq_foldl, Nat.ofDigitChars_ten_toDigits]

theorem all_isDigit_toDigits (n : Nat) : ∀ c ∈ Nat.toDigits 10 n, c.isDigit = true :=
  fun _ => Nat.isDigit_of_mem_toDigits (by decide) (by decide)

/-- A written number starts with a digit. -/
theorem exists_digit_toDigits (n : Nat) :
    ∃ c cs, c.isDigit = true ∧ Nat.toDigits 10 n = c :: cs := by
  obtain ⟨c, cs, hdigits⟩ := List.exists_cons_of_ne_nil (Nat.toDigits_ne_nil (n := n) (b := 10))
  exact ⟨c, cs, all_isDigit_toDigits n c (by simp [hdigits]), hdigits⟩

theorem toDigits_append_ne_cons (n : Nat) (rest : List Char) {d : Char} (hd : d.isDigit = false)
    (left : List Char) : Nat.toDigits 10 n ++ rest ≠ d :: left := by
  obtain ⟨c, cs, hc, hdigits⟩ := exists_digit_toDigits n
  rw [hdigits, List.cons_append, ne_eq, List.cons.injEq]
  rintro ⟨rfl, -⟩
  exact absurd hc (by simp [hd])

/-- The digits of a positive number do not start with zero. -/
theorem head?_toDigits_ne {n : Nat} (h : 0 < n) : (Nat.toDigits 10 n).head? ≠ some '0' := by
  induction n using Nat.strongRecOn with
  | ind n ih =>
    by_cases hlt : n < 10
    · rw [Nat.toDigits_of_lt_base hlt, List.head?_cons, ne_eq, Option.some.injEq,
        Nat.digitChar_eq_zero]
      omega
    · have hdigits := Nat.toDigits_of_base_le (b := 10) (n := n) (by decide) (by omega)
      rw [hdigits, List.head?_append, Option.or_of_isSome (by simp [Nat.toDigits_ne_nil])]
      exact ih (n / 10) (by omega) (by omega)

/-- A zero stands alone. -/
theorem length_toDigits_of_head? {n : Nat} (h : (Nat.toDigits 10 n).head? = some '0') :
    (Nat.toDigits 10 n).length = 1 := by
  rcases Nat.eq_zero_or_pos n with rfl | hpos
  · rfl
  · exact absurd h (head?_toDigits_ne hpos)

/-- The digits end where no number goes on. -/
theorem scanDigits_append {ds rest : List Char} (hds : ∀ c ∈ ds, c.isDigit = true)
    (hrest : EndsNumber rest) : scanDigits (ds ++ rest) = (ds, rest) := by
  have hstop : rest.takeWhile Char.isDigit = [] ∧ rest.dropWhile Char.isDigit = rest := by
    cases rest with
    | nil => exact ⟨rfl, rfl⟩
    | cons c cs =>
      have hc : ¬ c.isDigit = true := by
        simp [EndsNumber] at hrest
        simp [hrest]
      exact ⟨List.takeWhile_cons_of_neg hc, List.dropWhile_cons_of_neg hc⟩
  rw [scanDigits, List.takeWhile_append_of_pos hds, List.dropWhile_append_of_pos hds, hstop.1,
    hstop.2, List.append_nil]

theorem scanFraction_of_endsNumber {rest : List Char} (h : EndsNumber rest) :
    scanFraction rest = some (none, rest) := by
  unfold scanFraction
  split
  next => simp [EndsNumber] at h
  next => rfl

theorem scanExponent_of_endsNumber {rest : List Char} (h : EndsNumber rest) :
    scanExponent rest = some (none, rest) := by
  cases rest with
  | nil => rfl
  | cons c cs =>
    have hc : ¬ (c == 'e' || c == 'E') = true := by
      simp [EndsNumber] at h
      simp [h]
    simp only [scanExponent, if_neg hc]

/-- The digits of a number are read whole. -/
theorem scan_toDigits (n : Nat) {rest : List Char} (hrest : EndsNumber rest) :
    scan (Nat.toDigits 10 n ++ rest) = some (⟨false, Nat.toDigits 10 n, none, none⟩, rest) := by
  have hdigits := scanDigits_append (all_isDigit_toDigits n) hrest
  have hwhole : ¬ ((Nat.toDigits 10 n).isEmpty ||
      (Nat.toDigits 10 n).head? == some '0' && (Nat.toDigits 10 n).length != 1) = true := by
    have hne : (Nat.toDigits 10 n).isEmpty = false := by
      rw [List.isEmpty_eq_false_iff]
      exact Nat.toDigits_ne_nil
    rw [hne, Bool.false_or, Bool.and_eq_true, beq_iff_eq, bne_iff_ne]
    rintro ⟨hzero, hlength⟩
    exact hlength (length_toDigits_of_head? hzero)
  rw [scan.eq_2 _ (toDigits_append_ne_cons n rest rfl)]
  simp only [hdigits, if_neg hwhole, scanFraction_of_endsNumber hrest,
    scanExponent_of_endsNumber hrest, Option.bind_eq_bind, Option.bind_some, Option.pure_def]

/-- Digits without more are a natural number, if that fits. -/
theorem value?_toDigits {n : Nat} (h : n < bound) :
    value? ⟨false, Nat.toDigits 10 n, none, none⟩ = some (.natural n) := by
  simp only [value?, digitsValue_toDigits, Option.isNone_none, decide_eq_true h, Bool.and_self,
    if_true, Bool.not_false]

end NumberText

/-! ### Scalars -/

namespace Value

/-- The values that are no arrays and no objects; numbers are natural numbers of 64 bits. -/
inductive Scalar : Value → Prop
  | null : Scalar .null
  | boolean (b : Bool) : Scalar (.boolean b)
  | natural {n : Nat} (h : n < NumberText.bound) : Scalar (.natural n)
  | string (s : String) : Scalar (.string s)

theorem compactChars_natural (n : Nat) :
    (Value.natural n).compactChars = Nat.toDigits 10 n := by
  rw [natural, compactChars, Number.render, String.toList_ofList]

/-- Whether a written scalar can start with the character. -/
def startsScalar (c : Char) : Bool :=
  c.isDigit || c == '"' || c == 'n' || c == 't' || c == 'f'

theorem Scalar.exists_cons {v : Value} (h : v.Scalar) :
    ∃ c cs, v.compactChars = c :: cs ∧ startsScalar c = true := by
  cases h with
  | null => exact ⟨_, _, rfl, rfl⟩
  | boolean b => cases b <;> exact ⟨_, _, rfl, rfl⟩
  | @natural n h =>
    obtain ⟨c, cs, hc, hdigits⟩ := NumberText.exists_digit_toDigits n
    exact ⟨c, cs, by rw [compactChars_natural, hdigits], by simp [startsScalar, hc]⟩
  | string s => exact ⟨_, _, rfl, rfl⟩

/-- A written scalar is read back. -/
theorem Scalar.scanScalar_eq {v : Value} (h : v.Scalar) {rest : List Char}
    (hrest : EndsNumber rest) : scanScalar (v.compactChars ++ rest) = some (v, rest) := by
  cases h with
  | null => simp [compactChars, scanScalar, afterWord?]
  | boolean b => cases b <;> simp [compactChars, scanScalar, afterWord?]
  | @natural n h =>
    -- No string and no word starts with a digit.
    have hne {d : Char} (hd : d.isDigit = false) := NumberText.toDigits_append_ne_cons n rest hd
    rw [compactChars_natural, scanScalar.eq_5 _ (hne rfl) (hne rfl) (hne rfl) (hne rfl)]
    simp only [NumberText.scan_toDigits n hrest, NumberText.value?_toDigits h,
      Option.bind_eq_bind, Option.bind_some, Option.pure_def, Value.natural]
  | string s =>
    rw [compactChars, quote_append, scanScalar, scanString_flatMap_escape]
    simp only [Option.map_some, String.ofList_toList]

end Value

end ViewLint.Json
