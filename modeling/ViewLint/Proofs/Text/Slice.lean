import ViewLint.Grammar.Concrete

/-!
# Slices of a text

A part of a text is recovered from the text by the byte offsets at which it starts and stops.

## Main results

* `extract_toUTF8_append`: the bytes between two offsets.
* `sliceBytes_append`: the text between two offsets.
* `size_sliceBytes`, `sliceBytes_append_sliceBytes`: slices between offsets of characters.
-/

namespace ViewLint

/-- The bytes of a part of a text stand between the offsets of the part. -/
theorem extract_toUTF8_append (before part after : String) :
    (before ++ part ++ after).toUTF8.extract before.utf8ByteSize
      (before.utf8ByteSize + part.utf8ByteSize) = part.toUTF8 := by
  simp only [String.toUTF8_eq_toByteArray, String.toByteArray_append]
  rw [ByteArray.append_assoc, ← String.size_toByteArray, ← String.size_toByteArray]
  have h := ByteArray.extract_append_size_add (a := before.toByteArray)
    (b := part.toByteArray ++ after.toByteArray) (i := 0) (j := part.toByteArray.size)
  rw [Nat.add_zero] at h
  rw [h, ByteArray.extract_append_eq_left rfl]

theorem fromUTF8?_toUTF8 (s : String) : String.fromUTF8? s.toUTF8 = some s := by
  rw [String.fromUTF8?, dif_pos (by rw [String.toUTF8_eq_toByteArray]; exact s.isValidUTF8)]
  rfl

/-- A part of a text is the text between the offsets of the part. -/
theorem sliceBytes_append (before part after : String) :
    sliceBytes (before ++ part ++ after) before.utf8ByteSize
      (before.utf8ByteSize + part.utf8ByteSize) = part := by
  rw [sliceBytes, if_pos, extract_toUTF8_append, fromUTF8?_toUTF8, Option.getD_some]
  simp only [String.utf8ByteSize_append]
  omega

/-- The text up to the offset at which its first part stops. -/
theorem sliceBytes_zero_append (before after : String) :
    sliceBytes (before ++ after) 0 before.utf8ByteSize = before := by
  have h := sliceBytes_append "" before after
  rwa [String.empty_append, String.utf8ByteSize_empty, Nat.zero_add] at h

/-- The text from the offset at which its last part starts. -/
theorem sliceBytes_append_size (before after : String) :
    sliceBytes (before ++ after) before.utf8ByteSize (before ++ after).utf8ByteSize = after := by
  have h := sliceBytes_append before after ""
  rwa [String.append_empty, ← String.utf8ByteSize_append] at h

/-! ### Offsets of characters -/

/-- Of two texts that a text starts with, the one with more bytes starts with the other. -/
theorem exists_append_of_append_eq {a b c d : String} (h : a ++ b = c ++ d)
    (hle : a.utf8ByteSize ≤ c.utf8ByteSize) : ∃ m, c = a ++ m := by
  have hlist : a.toList ++ b.toList = c.toList ++ d.toList := by
    rw [← String.toList_append, h, String.toList_append]
  rcases List.prefix_or_prefix_of_prefix (List.prefix_append a.toList b.toList)
    (hlist ▸ List.prefix_append c.toList d.toList) with ⟨m, hm⟩ | ⟨m, hm⟩
  · exact ⟨String.ofList m, String.toList_inj.mp (by
      rw [String.toList_append, String.toList_ofList, hm])⟩
  · -- The longer text is also the shorter one, so nothing is left over.
    have ha : a = c ++ String.ofList m := String.toList_inj.mp (by
      rw [String.toList_append, String.toList_ofList, hm])
    rw [ha, String.utf8ByteSize_append] at hle
    have hempty : String.ofList m = "" := String.utf8ByteSize_eq_zero_iff.mp (by omega)
    exact ⟨"", by rw [ha, hempty, String.append_empty, String.append_empty]⟩

/-- An offset of a character cuts a text into two parts. -/
theorem exists_append_of_isValid {s : String} {i : Nat} (h : String.Pos.Raw.IsValid s ⟨i⟩) :
    ∃ before after, s = before ++ after ∧ before.utf8ByteSize = i := by
  obtain ⟨before, after, hs, hbefore⟩ := String.Pos.Raw.isValid_iff_exists_append.mp h
  exact ⟨before, after, hs, congrArg String.Pos.Raw.byteIdx hbefore.symm⟩

/-- Two offsets of characters cut a text into three parts. -/
theorem exists_parts {s : String} {i j : Nat} (hi : String.Pos.Raw.IsValid s ⟨i⟩)
    (hj : String.Pos.Raw.IsValid s ⟨j⟩) (hij : i ≤ j) :
    ∃ before part after, s = before ++ part ++ after ∧ before.utf8ByteSize = i ∧
      before.utf8ByteSize + part.utf8ByteSize = j := by
  obtain ⟨before, rest, rfl, rfl⟩ := exists_append_of_isValid hi
  obtain ⟨front, after, hs, rfl⟩ := exists_append_of_isValid hj
  obtain ⟨part, rfl⟩ := exists_append_of_append_eq hs hij
  exact ⟨before, part, after, hs, rfl, by rw [String.utf8ByteSize_append]⟩

/-- A slice between offsets of characters has the bytes between them. -/
theorem size_sliceBytes {s : String} {i j : Nat} (hi : String.Pos.Raw.IsValid s ⟨i⟩)
    (hj : String.Pos.Raw.IsValid s ⟨j⟩) (hij : i ≤ j) :
    i + (sliceBytes s i j).utf8ByteSize = j := by
  obtain ⟨before, part, after, rfl, rfl, rfl⟩ := exists_parts hi hj hij
  rw [sliceBytes_append]

/-- Slices between offsets of characters can be joined. -/
theorem sliceBytes_append_sliceBytes {s : String} {i j k : Nat}
    (hi : String.Pos.Raw.IsValid s ⟨i⟩) (hj : String.Pos.Raw.IsValid s ⟨j⟩)
    (hk : String.Pos.Raw.IsValid s ⟨k⟩) (hij : i ≤ j) (hjk : j ≤ k) :
    sliceBytes s i j ++ sliceBytes s j k = sliceBytes s i k := by
  obtain ⟨front, last, after, rfl, rfl, rfl⟩ := exists_parts hj hk hjk
  obtain ⟨before, rest, hs, rfl⟩ := exists_append_of_isValid hi
  obtain ⟨part, rfl⟩ := exists_append_of_append_eq (hs.symm.trans (String.append_assoc ..)) hij
  have hpart := sliceBytes_append before part (last ++ after)
  have hlast := sliceBytes_append (before ++ part) last after
  have hboth := sliceBytes_append before (part ++ last) after
  simp only [String.append_assoc, String.utf8ByteSize_append, Nat.add_assoc] at hpart hlast hboth ⊢
  rw [hpart, hlast, hboth]

end ViewLint
