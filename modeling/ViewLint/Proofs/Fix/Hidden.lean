import ViewLint.Proofs.Fix.Grammatical

/-!
# Spans that hide a call

A span is hidden at an address if the node there and the two nodes above it all have it. The
finding of a call is refused exactly if its span is hidden at the call, and a fix elsewhere keeps
what is hidden, except to the right of where it starts.

## Main definitions

* `Tree.Hidden`: three nodes, each the parent of the next, have the same span.

## Main results

* `Tree.Hidden.two_le_wrappers`, `Tree.LaidOut.hidden_of_two_le`: hidden spans are those of nodes
  with two wrappers or more.
* `Tree.Grammatical.fixAt_hidden`: no fix at a hidden span succeeds.
* `Tree.FixesAt.hidden_moved`: what a fix does to hidden spans.
-/

namespace ViewLint

namespace Tree

/-- The node at the address, its parent and the parent of its parent all have the span. -/
def Hidden (t : Tree) (q : Address) (s : Span) : Prop :=
  ∃ r i j, q = r ++ [i, j] ∧ t.spanAt? r = some s ∧ t.spanAt? (r ++ [i]) = some s ∧
    t.spanAt? q = some s

variable {t t' : Tree} {p q : Address} {s : Span} {n : Node}

theorem Hidden.spanAt? (h : t.Hidden q s) : t.spanAt? q = some s := by
  obtain ⟨-, -, -, -, -, -, hs⟩ := h
  exact hs

/-- A node whose span is hidden has two wrappers. -/
theorem Hidden.two_le_wrappers (h : t.Hidden q s) : 2 ≤ t.wrappers q := by
  obtain ⟨r, i, j, rfl, hr, hi, hj⟩ := h
  have houter : (r ++ [i, j]).take r.length = r := List.take_left
  have hinner : (r ++ [i, j]).take (r.length + 1) = r ++ [i] := by
    rw [List.take_length_add_append]
    rfl
  rw [wrappers, List.length_append, List.length_cons, List.length_singleton, List.range_succ,
    List.range_succ, List.countP_append, List.countP_append, List.countP_singleton,
    List.countP_singleton, houter, hinner, hr, hi, hj]
  simp only [decide_true, if_true]
  omega

/-- The span of a node with two wrappers is hidden. -/
theorem LaidOut.hidden_of_two_le (ht : t.LaidOut) (hsolid : ∀ n ∈ t.nodes, n.Solid)
    (hn : t.root.at? p = some n) (hwrap : 2 ≤ t.wrappers p) : t.Hidden p n.span := by
  obtain ⟨q, r, rfl, hloc, hcount⟩ := ht.locate_wrapper hsolid hn
  obtain ⟨m, hm, hspan⟩ := span_of_locate hloc
  -- The nodes between the outermost one with the span and the node itself have it.
  have hbetween (u v : Address) (huv : r = u ++ v) : t.spanAt? (q ++ u) = some n.span := by
    subst huv
    obtain ⟨a, ha⟩ := Node.exists_at?_above (p := q ++ u) hn
      ⟨v, by rw [List.append_assoc]⟩
    rw [spanAt?_of_at? ha, ← hspan, ht.span_eq_of_between (r := v) hm ha
      (by rwa [List.append_assoc]) hspan.symm]
  rw [hcount] at hwrap
  obtain ⟨u, j, rfl⟩ := List.eq_nil_or_concat r |>.resolve_left (by rintro rfl; simp at hwrap)
  obtain ⟨w, i, rfl⟩ := List.eq_nil_or_concat u |>.resolve_left (by rintro rfl; simp at hwrap)
  refine ⟨q ++ w, i, j, by simp, hbetween w [i, j] (by simp), ?_, spanAt?_of_at? hn⟩
  rw [List.append_assoc]
  exact hbetween (w ++ [i]) [j] (by simp)

/-- No fix at a hidden span succeeds. -/
theorem Grammatical.fixAt_hidden (hg : t.Grammatical) (ht : t.LaidOut) (h : t.Hidden q s)
    (v : View) : ∃ e, t.fixAt s v = .error e := by
  obtain ⟨n, hn, rfl⟩ := spanAt?_eq_some_iff.mp h.spanAt?
  obtain ⟨kind, hat⟩ := ht.callAt_hidden hg.solid hg.hasCallParts hn
    h.two_le_wrappers
  exact ⟨_, by rw [fixAt, hat]⟩

namespace FixesAt

variable {call callee receiver : Node} {member : String}

/-! ### The text of a call after its receiver -/

theorem callee_at (h : FixesAt t t' p call callee receiver member) :
    t.root.at? (p ++ [0]) = some callee :=
  Node.at?_append_child h.call_at (by rw [← List.head?_eq_getElem?, h.starts.callee_first])

/-- The receiver stops before its callee does. -/
theorem receiver_stop_lt (h : FixesAt t t' p call callee receiver member) (hg : t.Grammatical) :
    receiver.span.stop < callee.span.stop := by
  have hcallee := h.callee_at
  have hreceiver : t.root.at? (p ++ [0] ++ [0]) = some receiver := by
    rw [List.append_assoc]
    exact h.receiver_at []
  have htwo : 1 < callee.children.length := by
    have hlen := (hg callee (mem_nodes_of_at? hcallee)).access h.calls.isAccess
    rw [Node.fields, List.length_map] at hlen
    exact hlen.2
  have hnext := Node.at?_append_child hcallee (List.getElem?_eq_getElem htwo)
  have hpos := h.laidOut.start_lt_stop hg.solid hnext
  have hright := h.laidOut.stop_le_start hreceiver hnext Nat.zero_lt_one
  have hin := h.laidOut.span_le_of_append hcallee hnext
  omega

/-- The spans in the receiver stay where they are. -/
theorem shiftAfter_receiver {r : Address} (h : FixesAt t t' p call callee receiver member)
    (hg : t.Grammatical) (hn : t.root.at? (p ++ 0 :: 0 :: r) = some n) :
    shiftAfter n.span call.span.stop t.root.span.stop t'.root.span.stop = n.span := by
  have hlt := h.receiver_stop_lt hg
  have hcallee := h.laidOut.span_le_of_append h.call_at h.callee_at
  have hle := h.laidOut.start_le_stop hn
  have hin := h.laidOut.span_le_of_append (p := p ++ [0, 0]) (q := r)
    (by rw [h.receiver_at]; rfl) (by simpa using hn)
  rw [shiftAfter]
  dsimp only
  rw [if_neg (by omega), if_neg (by omega)]

/-- A node of the call to the right of the receiver starts after the call does. -/
theorem lt_start_of_right {i j : Nat} {u v w : Address}
    (h : FixesAt t t' p call callee receiver member) (hg : t.Grammatical)
    (hreceiver : t.root.at? (p ++ u ++ i :: v) = some receiver)
    (hn : t.root.at? (p ++ u ++ j :: w) = some n) (hij : i < j) :
    call.span.start < n.span.start := by
  have hpos := h.laidOut.start_lt_stop hg.solid hreceiver
  have hin := h.laidOut.span_le_of_append (q := u ++ i :: v) h.call_at
    (by rwa [← List.append_assoc])
  have hright := h.laidOut.stop_le_start hreceiver hn hij
  omega

/-! ### Hidden spans after a fix -/

/-- What is hidden outside the call stays hidden, and the span moves. -/
theorem hidden_outside (h : FixesAt t t' p call callee receiver member) (hpq : ¬ p <+: q)
    (hs : t.Hidden q s) :
    t'.Hidden q (shiftAfter s call.span.stop t.root.span.stop t'.root.span.stop) := by
  have hmove (u : Address) (hu : u <+: q) (hus : t.spanAt? u = some s) : t'.spanAt? u =
      some (shiftAfter s call.span.stop t.root.span.stop t'.root.span.stop) := by
    obtain ⟨n, hn, rfl⟩ := spanAt?_eq_some_iff.mp hus
    exact spanAt?_eq_some_iff.mpr (h.outside (fun hpu => hpq (hpu.trans hu)) hn)
  obtain ⟨r, i, j, rfl, hr, hi, hj⟩ := hs
  refine ⟨r, i, j, rfl, hmove r ⟨[i, j], rfl⟩ hr, hmove (r ++ [i]) ⟨[j], by simp⟩ hi, ?_⟩
  exact hmove (r ++ [i, j]) List.prefix_rfl hj

/-- What is hidden at a node of the receiver stays hidden, one level further up, and the span does
not move. -/
theorem hidden_receiver {r : Address} (h : FixesAt t t' p call callee receiver member)
    (hg : t.Grammatical) (hs : t.Hidden (p ++ 0 :: 0 :: r) s) :
    t'.Hidden (p ++ 0 :: r) s ∧
      shiftAfter s call.span.stop t.root.span.stop t'.root.span.stop = s := by
  have hlt := h.receiver_stop_lt hg
  obtain ⟨n, hn, hspan⟩ := spanAt?_eq_some_iff.mp hs.spanAt?
  have hin : s.stop ≤ receiver.span.stop := by
    rw [← hspan]
    exact (h.laidOut.span_le_of_append (p := p ++ [0, 0]) (q := r)
      (by rw [h.receiver_at]; rfl) (by simpa using hn)).2
  have hkeep (u : Address) (hu : t.spanAt? (p ++ 0 :: 0 :: u) = some s) :
      t'.spanAt? (p ++ 0 :: u) = some s := by
    obtain ⟨m, hm, hms⟩ := spanAt?_eq_some_iff.mp hu
    rw [h.receiver_at] at hm
    exact spanAt?_eq_some_iff.mpr ⟨m, h.receiver_kept hm, hms⟩
  constructor
  · obtain ⟨u, i, j, hq, hu, hi, hj⟩ := hs
    -- The callee stops after the receiver does, so the three nodes are below it.
    have hnot : ¬ u <+: p ++ [0] := by
      rintro ⟨v, hv⟩
      obtain ⟨m, hm, hms⟩ := spanAt?_eq_some_iff.mp hu
      have hbetween : callee.span = m.span :=
        h.laidOut.span_eq_of_between (q := v) (r := 0 :: r) hm (by rw [hv, h.callee_at])
          (by rwa [hv, List.append_assoc]) (hspan.trans hms.symm)
      rw [hbetween, hms] at hlt
      omega
    have hcomp := List.prefix_or_prefix_of_prefix ⟨[i, j], hq.symm⟩
      ⟨0 :: r, List.append_assoc p [0] (0 :: r)⟩
    obtain ⟨v, rfl⟩ := hcomp.resolve_left hnot
    have hv : 0 :: r = v ++ [i, j] := by simpa using hq
    match v with
    | [] => exact absurd ⟨[], by simp⟩ hnot
    | k :: v =>
      obtain ⟨rfl, rfl⟩ : 0 = k ∧ r = v ++ [i, j] := by simpa using hv
      refine ⟨p ++ 0 :: v, i, j, by simp, hkeep v (by simpa using hu), ?_, hkeep _ hj⟩
      simpa using hkeep (v ++ [i]) (by simpa using hi)
  · rw [← hspan]
    exact h.shiftAfter_receiver hg hn

/-- A hidden span is hidden after the fix, where it moves to, or starts after the fixed call. -/
theorem hidden_moved (h : FixesAt t t' p call callee receiver member) (hg : t.Grammatical)
    (hwrap : t.wrappers p ≤ 1) (hs : t.Hidden q s) :
    (∃ q', t'.Hidden q' (shiftAfter s call.span.stop t.root.span.stop t'.root.span.stop)) ∨
      call.span.start < s.start := by
  by_cases hpq : p <+: q
  · obtain ⟨w, rfl⟩ := hpq
    obtain ⟨n, hn, rfl⟩ := spanAt?_eq_some_iff.mp hs.spanAt?
    match w with
    | [] =>
      rw [List.append_nil] at hs
      exact absurd hs.two_le_wrappers (by omega)
    | [0] =>
      -- The call would wrap its callee, and have no arguments.
      obtain ⟨r, i, j, hq, -, hi, -⟩ := hs
      have hq' : p ++ [0] = r ++ [i] ++ [j] := by simpa using hq
      obtain ⟨rfl, -⟩ := List.append_inj' hq' rfl
      rw [spanAt?_of_at? h.call_at, Option.some.injEq] at hi
      obtain ⟨c, hc, -⟩ := h.laidOut.children_eq_singleton hg.solid h.call_at hn hi.symm
      exact absurd h.calls.isCall (Node.kind_ne_of_singleton
        (hg call (mem_nodes_of_at? h.call_at)).hasCallParts hc)
    | 0 :: 0 :: r =>
      obtain ⟨hkept, hstay⟩ := h.hidden_receiver hg hs
      rw [hstay]
      exact Or.inl ⟨_, hkept⟩
    | 0 :: (k + 1) :: r =>
      refine Or.inr (h.lt_start_of_right (u := [0]) (i := 0) (v := []) hg ?_
        (by rwa [List.append_assoc]) (Nat.succ_pos k))
      rw [List.append_assoc]
      exact h.receiver_at []
    | (k + 1) :: r =>
      refine Or.inr (h.lt_start_of_right (u := []) (i := 0) (v := [0]) hg ?_
        (by rwa [List.append_nil]) (Nat.succ_pos k))
      rw [List.append_nil]
      exact h.receiver_at []
  · exact Or.inl ⟨q, h.hidden_outside hpq hs⟩

end FixesAt

end Tree

end ViewLint
