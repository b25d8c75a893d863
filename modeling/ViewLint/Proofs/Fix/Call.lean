import ViewLint.Fix.Payload
import ViewLint.Proofs.Tree.Find

/-!
# The call that a fix replaces

What a successful fix has found and done, for any tree and any span, and when a call is found.

## Main definitions

* `Node.CallsThrough`: a call of a member of a receiver.
* `Node.StartsWithReceiver`: a call whose text starts with its receiver.

## Main results

* `Tree.callAt_eq_ok`: the call found is a call with the span, at its address.
* `Tree.fixAt_eq_ok`, `Tree.fixPayload_eq_ok`: a successful fix is one replacement.
* `Tree.callAt_of_call`, `Tree.callAt_of_wrapper`, `Tree.callAt_of_no_call`: what is found where
  the search for the span ends.
-/

namespace ViewLint

namespace Node

/-- `call` calls a member of `receiver` through the member access `callee`. -/
structure CallsThrough (call callee receiver : Node) : Prop where
  isCall : call.kind = "invocation_expression"
  function : call.field? "function" = some callee
  isAccess : callee.kind = "member_access_expression"
  expression : callee.field? "expression" = some receiver

/-- The callee is the first child of the call, and the receiver the first child of the callee. -/
structure StartsWithReceiver (call callee receiver : Node) : Prop where
  callee_first : call.children.head? = some (some "function", callee)
  receiver_first : callee.children.head? = some (some "expression", receiver)

theorem StartsWithReceiver.lead_eq {call callee receiver : Node}
    (h : call.StartsWithReceiver callee receiver) : call.lead = receiver.lead := by
  rw [lead_eq_of_head? h.callee_first, lead_eq_of_head? h.receiver_first]

end Node

namespace Tree

variable {t t' : Tree} {s : Span} {v : View} {p : Address} {n : Node}

/-- The child that the fixer accepts below a node that is no call itself. -/
theorem find?_of_findIdx? {cs : List Child} {isCall : Child → Bool} {i : Nat}
    (h : cs.findIdx? isCall = some i) : ∃ c, cs[i]? = some c ∧ isCall c = true ∧
      cs.find? isCall = some c := by
  obtain ⟨hi, hc, hfirst⟩ := List.findIdx?_eq_some_iff_getElem.mp h
  refine ⟨cs[i], List.getElem?_eq_getElem hi, hc, List.find?_eq_some_iff_getElem.mpr ?_⟩
  exact ⟨hc, i, hi, rfl, fun j hj => by simpa using hfirst j hj⟩

/-- The call found is a call, spans exactly the span, and stands at its address. -/
theorem callAt_eq_ok {call : Node} (h : t.callAt s = .ok (p, call)) :
    t.root.at? p = some call ∧ call.kind = "invocation_expression" ∧ call.span = s := by
  rw [callAt] at h
  cases hloc : t.locate s with
  | none => simp [hloc] at h
  | some q =>
    obtain ⟨located, hat, hspan⟩ := span_of_locate hloc
    simp only [hloc, hat] at h
    split at h
    next hkind =>
      obtain ⟨rfl, rfl⟩ := Prod.mk.inj (Except.ok.inj h)
      exact ⟨hat, hkind, hspan⟩
    next =>
      split at h
      next i c hidx hfind =>
        obtain ⟨d, hd, hcall, hfind'⟩ := find?_of_findIdx? hidx
        obtain rfl : d = c := Option.some.inj (hfind'.symm.trans hfind)
        obtain ⟨rfl, rfl⟩ := Prod.mk.inj (Except.ok.inj h)
        rw [Bool.and_eq_true, beq_iff_eq, beq_iff_eq] at hcall
        exact ⟨Node.at?_append_child hat hd, hcall.1, hcall.2⟩
      next => cases h

/-- A call with a receiver is a call through a member access. -/
theorem callsThrough_of_receiver {call receiver : Node}
    (hkind : call.kind = "invocation_expression")
    (h : receiverOfCall? call = some receiver) : ∃ callee, call.CallsThrough callee receiver := by
  obtain ⟨callee, hcallee, hreceiver⟩ := Option.bind_eq_some_iff.mp h
  obtain ⟨hfunction, haccess⟩ := Option.filter_eq_some_iff.mp hcallee
  exact ⟨callee, hkind, hfunction, by simpa using haccess, hreceiver⟩

theorem receiverOfCall?_of_callsThrough {call callee receiver : Node}
    (h : call.CallsThrough callee receiver) : receiverOfCall? call = some receiver := by
  rw [receiverOfCall?, h.function, Option.filter_some, if_pos (by simp [h.isAccess]),
    Option.bind_some, h.expression]

/-- A successful fix has found a call with a receiver, and is one replacement. -/
theorem fixAt_eq_ok (h : t.fixAt s v = .ok t') :
    ∃ p call receiver, t.callAt s = .ok (p, call) ∧ receiverOfCall? call = some receiver ∧
      t.replace p (receiver.memberAccess v.member) = some t' := by
  rw [fixAt] at h
  cases hcall : t.callAt s with
  | error e => simp [hcall] at h
  | ok found =>
    obtain ⟨p, call⟩ := found
    simp only [hcall] at h
    cases hrec : receiverOfCall? call with
    | none => simp [hrec] at h
    | some receiver =>
      simp only [hrec] at h
      cases hrep : t.replace p (receiver.memberAccess v.member) with
      | none => simp [hrep] at h
      | some fixed =>
        simp only [hrep, Except.ok.injEq] at h
        exact ⟨p, call, receiver, rfl, hrec, by rw [hrep, h]⟩

/-- The fix of a written finding is the fix of the span and the view it names. -/
theorem fixPayload_eq_ok {json : String} (h : t.fixPayload json = .ok t') :
    ∃ s v, t.fixAt s v = .ok t' := by
  rw [fixPayload] at h
  split at h
  · cases h
  · exact ⟨_, _, h⟩

/-! ### When a call is found -/

/-- The outermost node with the span is a call. -/
theorem callAt_of_call (hloc : t.locate s = some p) (hn : t.root.at? p = some n)
    (hkind : n.kind = "invocation_expression") : t.callAt s = .ok (p, n) := by
  rw [callAt, hloc]
  simp only [hn, hkind, if_true]

/-- The outermost node with the span wraps a call and nothing else. -/
theorem callAt_of_wrapper {f : Option String} {call : Node} (hloc : t.locate s = some p)
    (hn : t.root.at? p = some n) (hkind : n.kind ≠ "invocation_expression")
    (hcs : n.children = [(f, call)]) (hcall : call.kind = "invocation_expression")
    (hspan : call.span = s) : t.callAt s = .ok (p ++ [0], call) := by
  rw [callAt, hloc]
  simp [hn, hkind, hcs, hcall, hspan]

/-- The outermost node with the span is no call, nor is any child of it with the span. -/
theorem callAt_of_no_call (hloc : t.locate s = some p) (hn : t.root.at? p = some n)
    (hkind : n.kind ≠ "invocation_expression")
    (hcs : ∀ c ∈ n.children, c.2.span = s → c.2.kind ≠ "invocation_expression") :
    t.callAt s = .error (.notAnInvocation s n.kind) := by
  have hnone : n.children.findIdx? (fun c : Child =>
      c.2.kind == "invocation_expression" && c.2.span == s) = none := by
    rw [List.findIdx?_eq_none_iff]
    intro c hc
    rw [← Bool.not_eq_true, Bool.and_eq_true, beq_iff_eq, beq_iff_eq]
    rintro ⟨hcall, hspan⟩
    exact hcs c hc hspan hcall
  rw [callAt, hloc]
  simp only [hn, hkind, if_false, hnone]

/-- A call with a receiver is replaced by the view of the receiver. -/
theorem fixAt_of_callAt {call receiver : Node} (hcall : t.callAt s = .ok (p, call))
    (hrec : receiverOfCall? call = some receiver) (v : View) :
    ∃ t', t.fixAt s v = .ok t' ∧ t.replace p (receiver.memberAccess v.member) = some t' := by
  obtain ⟨root, hroot⟩ :=
    Node.replaceAt_eq_some (callAt_eq_ok hcall).1 (receiver.memberAccess v.member)
  have hrep : t.replace p (receiver.memberAccess v.member) = some (layout { t with root }) := by
    rw [replace, hroot]
    rfl
  refine ⟨_, ?_, hrep⟩
  rw [fixAt, hcall]
  simp only [hrec, hrep]

end Tree

end ViewLint
