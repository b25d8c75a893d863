import ViewLint.Fix.All
import ViewLint.Proofs.Fix.Splice

/-!
# Where the nodes stand after a fix

A fix of a call that starts with its receiver keeps the nodes outside the call and those of the
receiver. Outside the call, spans move as `shiftAfter` says; inside the receiver they stay. All
other nodes of the fixed tree are new, and none of them is a call.

## Main definitions

* `Tree.FixesAt`: one tree is another, laid out, after the fix of a call at an address.

## Main results

* `Tree.FixesAt.outside`: the nodes outside the call and their spans.
* `Tree.FixesAt.receiver_kept`: the nodes of the receiver.
* `Tree.FixesAt.origin`: where the nodes of the fixed tree come from.
* `Tree.fixesAt_of_fixAt`: which successful fixes are of this form.
-/

namespace ViewLint

namespace Tree

/-- `t'` is the laid out tree `t` after the fix of the call at an address. The call has a text, and
starts with its callee, which starts with the receiver. -/
structure FixesAt (t t' : Tree) (p : Address) (call callee receiver : Node) (member : String) :
    Prop where
  laidOut : t.LaidOut
  call_at : t.root.at? p = some call
  nonempty : call.span.start < call.span.stop
  calls : call.CallsThrough callee receiver
  starts : call.StartsWithReceiver callee receiver
  replaced : t.replace p (receiver.memberAccess member) = some t'

namespace FixesAt

variable {t t' : Tree} {p q : Address} {call callee receiver n n' : Node} {member : String}

theorem laidOut_fixed (h : FixesAt t t' p call callee receiver member) : t'.LaidOut :=
  laidOut_of_replace h.replaced

/-- The new member access starts with the trivia of the call. -/
theorem lead_memberAccess (h : FixesAt t t' p call callee receiver member) :
    (receiver.memberAccess member).lead = call.lead := by
  rw [h.starts.lead_eq]
  exact Node.lead_eq_of_head? (c := (some "expression", receiver)) rfl

/-- The new member access has a text after its trivia. -/
theorem size_lead_lt (h : FixesAt t t' p call callee receiver member) :
    call.lead.utf8ByteSize < (receiver.memberAccess member).fullText.utf8ByteSize := by
  rw [h.starts.lead_eq, Node.fullText_memberAccess, Node.fullText_eq_lead_append_text]
  simp only [String.utf8ByteSize_append]
  have hdot : ".".utf8ByteSize = 1 := rfl
  omega

/-- The length of the text changes by what the call and its replacement differ in. -/
theorem root_stop (h : FixesAt t t' p call callee receiver member) :
    t'.root.span.stop + call.fullText.utf8ByteSize =
      t.root.span.stop + (receiver.memberAccess member).fullText.utf8ByteSize := by
  obtain ⟨root, hroot, rfl⟩ := replace_eq_some h.replaced
  have hsize := Node.size_fullText_replaceAt hroot h.call_at
  have hlaid := h.laidOut.span_eq (p := []) rfl
  rw [hlaid, Node.span_layout, Node.before_nil, String.utf8ByteSize_empty]
  dsimp only
  omega

/-- The text before the call and its trivia, and the call itself, give its span. -/
theorem call_span (h : FixesAt t t' p call callee receiver member) :
    call.span = ⟨(t.root.before p).utf8ByteSize + call.lead.utf8ByteSize,
      (t.root.before p).utf8ByteSize + call.fullText.utf8ByteSize⟩ :=
  h.laidOut.span_eq h.call_at

/-- A start after that of the call stays after it. -/
theorem lt_start_shiftAfter (h : FixesAt t t' p call callee receiver member) {s : Span}
    (hs : call.span.start < s.start) :
    call.span.start <
      (shiftAfter s call.span.stop t.root.span.stop t'.root.span.stop).start := by
  have hroot := h.root_stop
  have hlead := h.size_lead_lt
  rw [shiftAfter]
  dsimp only
  split
  next hle =>
    rw [h.call_span] at hle ⊢
    dsimp only at hle ⊢
    omega
  next => exact hs

/-! ### Outside the call -/

/-- The nodes above the call keep their start, and their stop moves with the text. -/
theorem above {a : Node} {i : Nat} {r : Address}
    (h : FixesAt t t' (q ++ i :: r) call callee receiver member)
    (ha : t.root.at? q = some a) : ∃ a', t'.root.at? q = some a' ∧
      a'.span = shiftAfter a.span call.span.stop t.root.span.stop t'.root.span.stop := by
  obtain ⟨root, hroot, ht'⟩ := replace_eq_some h.replaced
  obtain ⟨a', ha', hrep⟩ := Node.at?_replaceAt_of_append hroot ha
  have hcall : a.at? (i :: r) = some call := by
    rw [← Node.at?_append_of_eq_some ha]
    exact h.call_at
  have hbefore := Node.before_replaceAt_of_append hroot
  have hlead := Node.lead_replaceAt hrep hcall h.lead_memberAccess
  have hsize := Node.size_fullText_replaceAt hrep hcall
  have hin := h.laidOut.span_le_of_append ha h.call_at
  have hne := h.nonempty
  have hlen := h.root_stop
  have hat : t'.root.at? q = some (a'.layout (root.before q).utf8ByteSize).1 := by
    rw [ht', Node.at?_layout, ha', Option.map_some, Nat.zero_add]
  refine ⟨_, hat, ?_⟩
  rw [Node.span_layout, hbefore, hlead, shiftAfter]
  dsimp only
  rw [if_neg (by omega), if_pos hin.2]
  have hspan := h.laidOut.span_eq ha
  rw [hspan]
  dsimp only
  rw [Span.mk.injEq]
  omega

/-- The nodes beside the call stay, and their spans move with the text. -/
theorem beside (h : FixesAt t t' p call callee receiver member) (hpq : ¬ p <+: q)
    (hqp : ¬ q <+: p) (hn : t.root.at? q = some n) : ∃ n', t'.root.at? q = some n' ∧
      n'.bare = n.bare ∧
      n'.span = shiftAfter n.span call.span.stop t.root.span.stop t'.root.span.stop := by
  obtain ⟨root, hroot, ht'⟩ := replace_eq_some h.replaced
  have hroot_at : root.at? q = some n := by
    rw [Node.at?_replaceAt_of_disjoint hroot hpq hqp, hn]
  have hat : t'.root.at? q = some (n.layout (root.before q).utf8ByteSize).1 := by
    rw [ht', Node.at?_layout, hroot_at, Option.map_some, Nat.zero_add]
  refine ⟨_, hat, Node.bare_layout _ _, ?_⟩
  have hspan := h.laidOut.span_eq hn
  have hcall := h.call_span
  have hne := h.nonempty
  have hlen := h.root_stop
  have hle := h.laidOut.start_le_stop hn
  have hcall_at := h.call_at
  obtain ⟨r, i, j, p', q', rfl, rfl, hij⟩ := Node.exists_fork hpq hqp
  obtain ⟨a, ha, -⟩ := Node.exists_at?_of_append hn
  rw [Node.span_layout, shiftAfter]
  dsimp only
  rcases Nat.lt_or_gt_of_ne hij with hij | hji
  · -- The node is to the right of the call: both ends move.
    have hright := h.laidOut.stop_le_start hcall_at hn hij
    have hbefore := Node.size_before_replaceAt_of_right (q := q') hroot ha hcall_at hij
    rw [if_pos hright, if_pos (Nat.le_trans hright hle), hspan]
    rw [hspan, hcall] at hright
    dsimp only at hright ⊢
    rw [Span.mk.injEq]
    omega
  · -- The node is to the left of the call: it stops before the call starts.
    have hleft := h.laidOut.stop_le_start hn hcall_at hji
    have hbefore := Node.before_replaceAt_of_left (q := q') hroot ha hji
    rw [if_neg (by omega), if_neg (by omega), hbefore, hspan]

/-- Outside the call, the nodes of the tree and of the fixed tree stand at the same addresses, and
the spans move as `shiftAfter` says. -/
theorem outside (h : FixesAt t t' p call callee receiver member) (hpq : ¬ p <+: q)
    (hn : t.root.at? q = some n) : ∃ n', t'.root.at? q = some n' ∧
      n'.span = shiftAfter n.span call.span.stop t.root.span.stop t'.root.span.stop := by
  by_cases hqp : q <+: p
  · obtain ⟨r, rfl⟩ := hqp
    cases r with
    | nil => exact absurd ⟨[], by simp⟩ hpq
    | cons i r => exact h.above hn
  · obtain ⟨n', hn', -, hspan⟩ := h.beside hpq hqp hn
    exact ⟨n', hn', hspan⟩

/-! ### Inside the receiver -/

/-- The receiver is the first child of the first child of the call. -/
theorem receiver_at (h : FixesAt t t' p call callee receiver member) (r : Address) :
    t.root.at? (p ++ 0 :: 0 :: r) = receiver.at? r := by
  rw [Node.at?_append_of_eq_some h.call_at, Node.at?_cons, ← List.head?_eq_getElem?,
    h.starts.callee_first, Option.bind_some, Node.at?_cons, ← List.head?_eq_getElem?,
    h.starts.receiver_first]
  rfl

/-- The nodes of the receiver stay as they are, one level further up. -/
theorem receiver_kept (h : FixesAt t t' p call callee receiver member) {r : Address}
    (hn : receiver.at? r = some n) : t'.root.at? (p ++ 0 :: r) = some n := by
  obtain ⟨root, hroot, ht'⟩ := replace_eq_some h.replaced
  have hnew : root.at? p = some (receiver.memberAccess member) := by
    simpa using Node.at?_replaceAt_append hroot []
  have hat : root.at? (p ++ 0 :: r) = some n := by
    rw [Node.at?_replaceAt_append hroot, ← hn]
    rfl
  have hbefore : root.before (p ++ 0 :: r) = t.root.before (p ++ 0 :: 0 :: r) := by
    rw [Node.before_append hnew, Node.before_append h.call_at, Node.before_replaceAt hroot,
      Node.before_zero_cons (c := (some "expression", receiver)) rfl,
      Node.before_zero_cons h.starts.callee_first, Node.before_zero_cons h.starts.receiver_first]
  rw [ht', Node.at?_layout, hat, Option.map_some, Nat.zero_add, hbefore,
    h.laidOut.layout_eq (by rw [h.receiver_at, hn])]

/-! ### The nodes of the fixed tree -/

/-- A node of a new member access belongs to the receiver, or is the access itself, the dot or
the name. -/
theorem at?_memberAccess {w : Address} (hn : (receiver.memberAccess member).at? w = some n) :
    (∃ r, w = 0 :: r ∧ receiver.at? r = some n) ∨ n = receiver.memberAccess member ∨
      (∃ s, n = .token "." false s "" ".") ∨ ∃ s, n = .token "identifier" true s "" member := by
  match w with
  | [] => exact Or.inr (Or.inl (Option.some.inj hn).symm)
  | 0 :: r => exact Or.inl ⟨r, rfl, hn⟩
  | [1] => exact Or.inr (Or.inr (Or.inl ⟨_, (Option.some.inj hn).symm⟩))
  | [2] => exact Or.inr (Or.inr (Or.inr ⟨_, (Option.some.inj hn).symm⟩))
  | 1 :: i :: r => simp [Node.memberAccess, Node.ofChildren, Node.at?_cons] at hn
  | 2 :: i :: r => simp [Node.memberAccess, Node.ofChildren, Node.at?_cons] at hn
  | (i + 3) :: r => simp [Node.memberAccess, Node.ofChildren, Node.at?_cons] at hn

/-- A call in the fixed tree was a node outside the fixed call, or belongs to the receiver. -/
theorem origin (h : FixesAt t t' p call callee receiver member)
    (hn' : t'.root.at? q = some n') (hkind : n'.kind = "invocation_expression") :
    (¬ p <+: q ∧ ∃ n, t.root.at? q = some n) ∨
      ∃ r, q = p ++ 0 :: r ∧ receiver.at? r = some n' := by
  obtain ⟨root, hroot, ht'⟩ := replace_eq_some h.replaced
  rw [ht', Node.at?_layout, Option.map_eq_some_iff] at hn'
  obtain ⟨m, hm, rfl⟩ := hn'
  rw [Node.kind_layout] at hkind
  by_cases hpq : p <+: q
  · obtain ⟨w, rfl⟩ := hpq
    rw [Node.at?_replaceAt_append hroot] at hm
    rcases at?_memberAccess hm with ⟨r, rfl, hr⟩ | rfl | ⟨s, rfl⟩ | ⟨s, rfl⟩
    · refine Or.inr ⟨r, rfl, ?_⟩
      have hkept := h.receiver_kept hr
      rw [ht', Node.at?_layout, Node.at?_replaceAt_append hroot, hm, Option.map_some] at hkept
      rw [hr]
      exact hkept.symm
    · exact absurd hkind (by simp [Node.memberAccess, Node.ofChildren, Node.kind])
    · exact absurd hkind (by simp [Node.kind])
    · exact absurd hkind (by simp [Node.kind])
  · refine Or.inl ⟨hpq, ?_⟩
    by_cases hqp : q <+: p
    · exact Node.exists_at?_above h.call_at hqp
    · exact ⟨m, by rw [← Node.at?_replaceAt_of_disjoint hroot hpq hqp, hm]⟩

end FixesAt

/-- A fix that succeeds in a laid out tree, of a call that has a text and starts with its
receiver. -/
theorem fixesAt_of_fixAt {t t' : Tree} {s : Span} {v : View} {p : Address}
    {call callee receiver : Node} (ht : t.LaidOut) (hcall : t.callAt s = .ok (p, call))
    (hfix : t.fixAt s v = .ok t') (hne : s.start < s.stop)
    (hstarts : call.StartsWithReceiver callee receiver) :
    FixesAt t t' p call callee receiver v.member := by
  obtain ⟨p', call', receiver', hcall', hreceiver, hrep⟩ := fixAt_eq_ok hfix
  rw [hcall] at hcall'
  obtain ⟨rfl, rfl⟩ := Prod.mk.inj (Except.ok.inj hcall')
  obtain ⟨hat, hkind, rfl⟩ := callAt_eq_ok hcall
  obtain ⟨callee', hthrough⟩ := callsThrough_of_receiver hkind hreceiver
  obtain rfl : callee = callee' := Option.some.inj
    ((Node.field?_of_head? hstarts.callee_first).symm.trans hthrough.function)
  obtain rfl : receiver = receiver' := Option.some.inj
    ((Node.field?_of_head? hstarts.receiver_first).symm.trans hthrough.expression)
  exact ⟨ht, hat, hne, hthrough, hstarts, hrep⟩

end Tree

end ViewLint
