import ViewLint.Json.Decode
import ViewLint.Proofs.Json.Value

/-!
# Decoding written values

A decoder reads a result from a value when it returns the result from the written form of the value
and leaves what follows. The decoders of scalars, variants and sequences read what they are for, and
the decoder of a record reads an object with one member for each field, each under its own name.

## Main definitions

* `Reads`: a decoder reads a result from a value.
* `Entry`: a field with a value and the result that its decoder reads from that value.

## Main results

* `reads_sequence`: the decoder of a sequence reads the array of written items.
* `members_commaSeparated`: the loop over the members of an object keeps the results of those it has
  passed, the last one first.
* `reads_record`: the decoder of a record reads the object of its entries.
* `decode_compact`: the whole text is decoded.
-/

namespace ViewLint.Json

variable {α : Type}

theorem ok_bind {ε α β : Type} (a : α) (f : α → Except ε β) : (Except.ok a >>= f) = f a :=
  rfl

/-- The decoder reads `a` from the written form of `v`, whatever follows. -/
def Reads (decoder : Decoder α) (v : Value) (a : α) : Prop :=
  ∀ rest, EndsNumber rest → decoder (v.compactChars ++ rest) = .ok (a, rest)

theorem decode_compact {decoder : Decoder α} {v : Value} {a : α} (h : Reads decoder v a) :
    decode decoder v.compact = .ok a := by
  have hreads := h [] rfl
  rw [List.append_nil] at hreads
  rw [decode, Value.compact, String.toList_ofList, hreads]
  rfl

/-! ### Scalars and variants -/

theorem Value.Scalar.scanFound_eq {v : Value} (h : v.Scalar) {rest : List Char}
    (hrest : EndsNumber rest) : scanFound (v.compactChars ++ rest) = .ok (v.found, rest) := by
  have hscan := h.scanScalar_eq hrest
  obtain ⟨c, cs, hchars, hc⟩ := h.exists_cons
  rw [scanFound, h.skipBlanks_append]
  rw [hchars, List.cons_append] at hscan ⊢
  split
  next h => cases h; cases hc
  next h => cases h; cases hc
  next => rw [hscan]

theorem reads_scalar {read : Found → Except Mismatch α} {v : Value} {a : α} (h : v.Scalar)
    (hread : read v.found = .ok a) : Reads (scalar read) v a := by
  intro rest hrest
  simp only [scalar, h.scanFound_eq hrest, hread]

theorem reads_index {n : Nat} (h : n < NumberText.bound) : Reads index (.natural n) n :=
  reads_scalar (.natural h) rfl

theorem reads_text (s : String) : Reads text (.string s) s :=
  reads_scalar (.string s) rfl

theorem reads_path (s : String) : Reads path (.string s) s :=
  reads_scalar (.string s) rfl

theorem reads_variant {variants : List (String × α)} {name : String} {a : α}
    (h : variants.lookup name = some a) (expected : String) :
    Reads (variant variants expected) (.string name) a := by
  intro rest hrest
  have hfound := (Value.Scalar.string name).scanFound_eq hrest
  rw [Value.compactChars, quote_append] at hfound ⊢
  simp only [variant, skipBlanks_cons (c := '"') rfl, variantName, hfound, ok_bind, Value.found, h]

/-! ### Sequences -/

/-- The texts, each after a comma. -/
def commaSeparated (texts : List (List Char)) : List Char :=
  texts.flatMap (',' :: ·)

theorem commaSeparated_cons (cs : List Char) (texts : List (List Char)) (rest : List Char) :
    commaSeparated (cs :: texts) ++ rest = ',' :: (cs ++ (commaSeparated texts ++ rest)) := by
  rw [commaSeparated, List.flatMap_cons, commaSeparated, List.cons_append, List.cons_append,
    List.append_assoc]

theorem length_le_length_commaSeparated (texts : List (List Char)) :
    texts.length ≤ (commaSeparated texts).length := by
  induction texts with
  | nil => exact Nat.le_refl _
  | cons cs texts ih =>
    rw [commaSeparated, List.flatMap_cons, List.length_append, List.length_cons, List.length_cons]
    rw [commaSeparated] at ih
    omega

/-- No number goes on with a comma, or with a character that ends an array or an object. -/
theorem endsNumber_commaSeparated (texts : List (List Char)) (rest : List Char)
    (hrest : EndsNumber rest) : EndsNumber (commaSeparated texts ++ rest) := by
  cases texts with
  | nil => exact hrest
  | cons => rfl

namespace Value

theorem compactItems_cons (v : Value) (vs : List Value) :
    compactItems (v :: vs) = v.compactChars ++ commaSeparated (vs.map compactChars) := by
  induction vs generalizing v with
  | nil => rw [compactItems, List.map_nil, commaSeparated, List.flatMap_nil, List.append_nil]
  | cons w vs ih =>
    rw [compactItems_cons_cons, ih]
    rfl

theorem compactMembers_cons (m : String × Value) (ms : List (String × Value)) :
    compactMembers (m :: ms) = memberChars m ++ commaSeparated (ms.map memberChars) := by
  induction ms generalizing m with
  | nil => rw [compactMembers_singleton, List.map_nil, commaSeparated, List.flatMap_nil,
      List.append_nil]
  | cons w ms ih =>
    rw [compactMembers_cons_cons, ih]
    rfl

theorem length_le_length_compactMembers (ms : List (String × Value)) :
    ms.length ≤ (compactMembers ms).length := by
  cases ms with
  | nil => exact Nat.le_refl _
  | cons m ms =>
    have hlength := length_le_length_commaSeparated (ms.map memberChars)
    rw [List.length_map] at hlength
    rw [compactMembers_cons, List.length_append, memberChars, List.length_append, List.length_cons,
      List.length_cons]
    omega

end Value

/-- The first item of an array starts after the bracket. -/
theorem Value.Readable.nextItem_true {depth : Nat} {v : Value} (h : v.Readable depth)
    (left : List Char) :
    nextItem true (v.compactChars ++ left) = .ok (some (v.compactChars ++ left)) := by
  obtain ⟨c, cs, hchars, hc⟩ := h.exists_cons
  rw [hchars, List.cons_append, nextItem, skipBlanks_cons (isBlank_eq_false_of_startsValue hc)]
  split
  next heq => cases heq; cases hc
  next heq => cases heq; cases hc
  next heq => cases heq
  next => rfl

/-- Every other item starts after a comma. -/
theorem Value.Readable.nextItem_false {depth : Nat} {v : Value} (h : v.Readable depth)
    (left : List Char) :
    nextItem false (',' :: (v.compactChars ++ left)) = .ok (some (v.compactChars ++ left)) := by
  obtain ⟨c, cs, hchars, hc⟩ := h.exists_cons
  rw [hchars, List.cons_append]
  simp only [nextItem, skipBlanks_cons (c := ',') rfl,
    skipBlanks_cons (isBlank_eq_false_of_startsValue hc), Bool.false_eq_true, if_false]
  split
  next heq => cases heq
  next heq => cases heq; cases hc
  next => rfl

/-- One step of the loop over the items of an array. -/
theorem items_step {item : Decoder α} {first : Bool} {cs left rest : List Char} {v : Value} {a : α}
    {as : List α} {limit : Nat} (hnext : nextItem first cs = .ok (some (v.compactChars ++ left)))
    (hreads : Reads item v a) (hleft : EndsNumber left)
    (has : items item limit false left = .ok (as, rest)) :
    items item (limit + 1) first cs = .ok (a :: as, rest) := by
  simp only [items, hnext, ok_bind, hreads left hleft, has]
  rfl

section Sequence

variable {item : Decoder α} {write : α → Value} {depth : Nat}

/-- The items after the first are read up to the end of the array. -/
theorem items_commaSeparated (as : List α) (hreads : ∀ a ∈ as, Reads item (write a) a)
    (hreadable : ∀ a ∈ as, (write a).Readable depth) (limit : Nat) (hlimit : as.length < limit)
    (rest : List Char) :
    items item limit false
        (commaSeparated ((as.map write).map Value.compactChars) ++ ']' :: rest) =
      .ok (as, rest) := by
  induction as generalizing limit with
  | nil =>
    obtain ⟨limit, rfl⟩ := Nat.exists_eq_add_one.mpr (show 0 < limit by omega)
    rfl
  | cons a as ih =>
    rw [List.length_cons] at hlimit
    obtain ⟨limit, rfl⟩ := Nat.exists_eq_add_one.mpr (show 0 < limit by omega)
    have has := ih (fun b hb => hreads b (List.mem_cons_of_mem a hb))
      (fun b hb => hreadable b (List.mem_cons_of_mem a hb)) limit (by omega)
    rw [List.map_cons, List.map_cons, commaSeparated_cons]
    exact items_step ((hreadable a (List.mem_cons_self ..)).nextItem_false _)
      (hreads a (List.mem_cons_self ..)) (endsNumber_commaSeparated _ _ rfl) has

/-- The decoder of a sequence reads the array of the written items. -/
theorem reads_sequence (as : List α) (hreads : ∀ a ∈ as, Reads item (write a) a)
    (hreadable : ∀ a ∈ as, (write a).Readable depth) :
    Reads (sequence item) (.array (as.map write)) as := by
  intro rest hrest
  have hfound (cs : List Char) : scanFound ('[' :: cs) = .ok (.sequence, cs) := rfl
  rw [Value.compactChars, List.cons_append, List.cons_append, List.append_assoc,
    List.singleton_append, sequence, hfound]
  cases as with
  | nil => rfl
  | cons a as =>
    have hlength := length_le_length_commaSeparated ((as.map write).map Value.compactChars)
    rw [List.map_cons, Value.compactItems_cons, List.append_assoc]
    simp only [List.length_map] at hlength
    have has := items_commaSeparated as (fun b hb => hreads b (List.mem_cons_of_mem a hb))
      (fun b hb => hreadable b (List.mem_cons_of_mem a hb))
    rw [ok_bind]
    exact items_step ((hreadable a (List.mem_cons_self ..)).nextItem_true _)
      (hreads a (List.mem_cons_self ..)) (endsNumber_commaSeparated _ _ rfl)
      (has _ (by simp only [List.length_cons, List.length_append]; omega) rest)

end Sequence

/-! ### Records -/

/-- A field with a value and the result that its decoder reads from that value. -/
structure Entry (α : Type) where
  field : Field α
  value : Value
  result : α
  reads : Reads field.decoder value result

namespace Entry

/-- The member of an object that holds the value. -/
def member (e : Entry α) : String × Value :=
  (e.field.name, e.value)

/-- The result under the name of the field. -/
def named (e : Entry α) : String × α :=
  (e.field.name, e.result)

/-- The fields of the entries have different names. -/
def Distinct (es : List (Entry α)) : Prop :=
  (es.map (·.field.name)).Nodup

theorem lookup_named (es : List (Entry α)) (name : String) :
    (es.map named).lookup name = (es.find? (·.field.name == name)).map (·.result) := by
  induction es with
  | nil => rfl
  | cons e es ih =>
    rw [List.map_cons, named, List.lookup_cons, List.find?_cons, BEq.comm]
    cases e.field.name == name with
    | true => rfl
    | false => exact ih

theorem Distinct.find? {es : List (Entry α)} (h : Distinct es) {e : Entry α} (he : e ∈ es) :
    es.find? (·.field.name == e.field.name) = some e := by
  induction es with
  | nil => cases he
  | cons d es ih =>
    obtain ⟨hd, hes⟩ := List.nodup_cons.mp h
    rw [List.find?_cons]
    rcases List.mem_cons.mp he with rfl | he
    · rw [beq_self_eq_true]
    · have hne : (d.field.name == e.field.name) = false := by
        rw [beq_eq_false_iff_ne]
        intro heq
        exact hd (List.mem_map.mpr ⟨e, he, heq.symm⟩)
      rw [hne]
      exact ih hes he

theorem Distinct.find?_field {es : List (Entry α)} (h : Distinct es) {e : Entry α} (he : e ∈ es) :
    (es.map (·.field)).find? (·.name == e.field.name) = some e.field := by
  rw [List.find?_map, Function.comp_def, h.find? he, Option.map_some]

/-- An entry is not among those before it. -/
theorem Distinct.find?_eq_none {passed left : List (Entry α)} {e : Entry α}
    (h : Distinct (passed ++ e :: left)) :
    passed.reverse.find? (·.field.name == e.field.name) = none := by
  rw [Distinct, List.map_append, List.map_cons, List.nodup_append] at h
  rw [List.find?_eq_none]
  intro d hd hname
  exact h.2.2 _ (List.mem_map.mpr ⟨d, List.mem_reverse.mp hd, rfl⟩) _ (List.mem_cons_self ..)
    (beq_iff_eq.mp hname)

theorem Distinct.reverse {es : List (Entry α)} (h : Distinct es) : Distinct es.reverse := by
  rw [Distinct, List.map_reverse, List.Nodup, List.pairwise_reverse]
  exact h.imp Ne.symm

end Entry

/-- One step of the loop over the members of an object: the result of the member is kept. -/
theorem members_step {fields : List (Field α)} {e : Entry α} {first : Bool}
    {seen : List (String × α)} {cs left : List Char}
    (hnext : nextName first cs = .ok (some (e.field.name.toList.flatMap escape ++
      '"' :: ':' :: (e.value.compactChars ++ left))))
    (hfind : fields.find? (·.name == e.field.name) = some e.field)
    (hseen : seen.lookup e.field.name = none) (hleft : EndsNumber left) (limit : Nat) :
    members fields (limit + 1) first seen cs =
      members fields limit false (e.named :: seen) left := by
  have hcolon (cs : List Char) : afterColon (':' :: cs) = .ok cs := rfl
  simp only [members, hnext, ok_bind, scanString_flatMap_escape, String.ofList_toList, hfind, hseen,
    hcolon, e.reads left hleft, Option.isSome_none, Bool.false_eq_true, if_false]
  rfl

theorem nextName_true (m : String × Value) (left : List Char) :
    nextName true (Value.memberChars m ++ left) = .ok (some (m.1.toList.flatMap escape ++
      '"' :: ':' :: (m.2.compactChars ++ left))) := by
  rw [Value.memberChars_append]
  rfl

theorem nextName_false (m : String × Value) (left : List Char) :
    nextName false (',' :: (Value.memberChars m ++ left)) = .ok (some (m.1.toList.flatMap escape ++
      '"' :: ':' :: (m.2.compactChars ++ left))) := by
  rw [Value.memberChars_append]
  rfl

/-- The loop over the members of an object has kept the results of the entries it has passed, the
last one first, and at the end of the object it has kept them all. -/
theorem members_commaSeparated {es : List (Entry α)} (hdistinct : Entry.Distinct es)
    (passed left : List (Entry α)) (hes : es = passed ++ left) (limit : Nat)
    (hlimit : left.length < limit) (rest : List Char) :
    members (es.map (·.field)) limit false (passed.reverse.map Entry.named)
        (commaSeparated ((left.map Entry.member).map Value.memberChars) ++ '\x7d' :: rest) =
      .ok (es.reverse.map Entry.named, rest) := by
  induction left generalizing passed limit with
  | nil =>
    obtain ⟨limit, rfl⟩ := Nat.exists_eq_add_one.mpr (show 0 < limit by omega)
    rw [hes, List.append_nil]
    rfl
  | cons e left ih =>
    rw [List.length_cons] at hlimit
    obtain ⟨limit, rfl⟩ := Nat.exists_eq_add_one.mpr (show 0 < limit by omega)
    have hfind := hdistinct.find?_field (e := e) (by simp [hes])
    have hseen : (passed.reverse.map Entry.named).lookup e.field.name = none := by
      rw [Entry.lookup_named, Entry.Distinct.find?_eq_none (hes ▸ hdistinct), Option.map_none]
    have hleft := ih (passed ++ [e]) (by simp [hes]) limit (by omega)
    rw [List.reverse_append, List.reverse_singleton, List.singleton_append, List.map_cons] at hleft
    rw [List.map_cons, List.map_cons, commaSeparated_cons]
    exact (members_step (nextName_false e.member _) hfind hseen
      (endsNumber_commaSeparated _ ('\x7d' :: rest) rfl) limit).trans hleft

/-- All the members of an object are read. -/
theorem members_compactMembers {es : List (Entry α)} (hdistinct : Entry.Distinct es) (limit : Nat)
    (hlimit : es.length < limit) (rest : List Char) :
    members (es.map (·.field)) limit true []
        (Value.compactMembers (es.map Entry.member) ++ '\x7d' :: rest) =
      .ok (es.reverse.map Entry.named, rest) := by
  obtain ⟨limit, rfl⟩ := Nat.exists_eq_add_one.mpr (show 0 < limit by omega)
  cases es with
  | nil => rfl
  | cons e es =>
    rw [List.length_cons] at hlimit
    have hfind := hdistinct.find?_field (List.mem_cons_self ..)
    have hes := members_commaSeparated hdistinct [e] es rfl limit (by omega) rest
    rw [List.map_cons (f := Entry.member), Value.compactMembers_cons, List.append_assoc]
    exact (members_step (nextName_true e.member _) hfind rfl
      (endsNumber_commaSeparated _ ('\x7d' :: rest) rfl) limit).trans hes

/-- The results of the fields are found under their names. -/
theorem complete_named {es : List (Entry α)} (hdistinct : Entry.Distinct es) :
    complete (es.map (·.field)) (es.reverse.map Entry.named) = .ok (es.map (·.result)) := by
  have hfound : ∀ e ∈ es, (es.reverse.map Entry.named).lookup e.field.name = some e.result := by
    intro e he
    rw [Entry.lookup_named, hdistinct.reverse.find? (List.mem_reverse.mpr he), Option.map_some]
  rw [complete]
  generalize es.reverse.map Entry.named = seen at hfound
  clear hdistinct
  induction es with
  | nil => rfl
  | cons e es ih =>
    have hes := ih fun d hd => hfound d (List.mem_cons_of_mem e hd)
    rw [List.map_cons, List.mapM_cons, hfound e (List.mem_cons_self ..), hes]
    rfl

/-- The decoder of a record reads the object with the values of all its fields. -/
theorem reads_record (what : String) {es : List (Entry α)} (hdistinct : Entry.Distinct es) :
    Reads (record what (es.map (·.field))) (.object (es.map Entry.member))
      (es.map (·.result)) := by
  intro rest hrest
  have hfound (cs : List Char) : scanFound ('\x7b' :: cs) = .ok (.map, cs) := rfl
  have hlength := Value.length_le_length_compactMembers (es.map Entry.member)
  rw [List.length_map] at hlength
  rw [Value.compactChars_object, List.cons_append, List.append_assoc, List.singleton_append, record,
    hfound, ok_bind]
  simp only
  rw [members_compactMembers hdistinct _
      (by simp only [List.length_cons, List.length_append]; omega), ok_bind,
    complete_named hdistinct]
  rfl

end ViewLint.Json
