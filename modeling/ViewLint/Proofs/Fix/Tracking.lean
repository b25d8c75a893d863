import ViewLint.Proofs.Fix.Shift
import ViewLint.Proofs.Tree.Wrapper

/-!
# Spans are tracked through a fix

A fix changes the length of the text at one place. The new span of a node outside the fixed call is
computed from the old one alone, each end on its own: an end at or after the stop of the call moves
by the difference of the stops of the roots, and any other end stays. This gives the span of the
node in the fixed tree, whether the node is before, after or around the call, and also if it is
empty and stands right at the stop of the call. No subtraction on the way falls below zero.

## Main results

* `Tree.FixesAt.spanAt?_outside`: the spans outside the call.
* `Tree.FixesAt.at?_receiver`: the receiver is kept with its spans.
* `Tree.FixesAt.root_stop_le`: the subtraction is exact for all offsets that move.
* `Tree.fixAt_tracks_spans`: the same for the fix of a span.
-/

namespace ViewLint

namespace Tree

namespace FixesAt

variable {t t' : Tree} {p q : Address} {call callee receiver : Node} {member : String}

/-- Outside the call the fixed tree has nodes at the same addresses, and their spans are those that
`shiftAfter` gives. -/
theorem spanAt?_outside (h : FixesAt t t' p call callee receiver member) (hpq : ¬ p <+: q) :
    t'.spanAt? q = (t.spanAt? q).map fun x =>
      shiftAfter x call.span.stop t.root.span.stop t'.root.span.stop := by
  cases hn : t.root.at? q with
  | some n =>
    obtain ⟨n', hn', hspan⟩ := h.outside hpq hn
    rw [spanAt?_of_at? hn, spanAt?_of_at? hn', hspan, Option.map_some]
  | none =>
    -- A splice adds no node outside of its place.
    have hlabel := (splicedAt_of_replace h.replaced).outside q hpq
    rw [hn, Option.map_none, Option.map_eq_none_iff] at hlabel
    rw [spanAt?, spanAt?, hn, hlabel]
    rfl

/-- The receiver is kept one level further up, with the spans of all its nodes. -/
theorem at?_receiver (h : FixesAt t t' p call callee receiver member) (r : Address) :
    t'.root.at? (p ++ 0 :: r) = t.root.at? (p ++ 0 :: 0 :: r) := by
  have hkept : t'.root.at? (p ++ [0]) = some receiver := h.receiver_kept rfl
  rw [h.receiver_at, ← List.singleton_append, ← List.append_assoc,
    Node.at?_append_of_eq_some hkept]

/-- The text loses no more by the fix than what stands before any offset that moves. -/
theorem root_stop_le (h : FixesAt t t' p call callee receiver member) {offset : Nat}
    (hoffset : call.span.stop ≤ offset) :
    t.root.span.stop ≤ offset + t'.root.span.stop := by
  have hroot := h.root_stop
  rw [h.call_span] at hoffset
  dsimp only at hoffset
  omega

end FixesAt

/-- **Spans are tracked through a fix.** Let the fix of a call succeed in a laid out tree, where the
call is not empty and starts with its receiver. Then the fixed tree has, outside the call, nodes at
the same addresses with the same labels, and the span of each is the old one as `shiftAfter` moves
it. All nodes of the receiver keep their spans. An offset that moves, plus the new stop of the root,
is never less than the old stop, so the subtraction in `shiftAfter` is exact. -/
theorem fixAt_tracks_spans {t t' : Tree} {s : Span} {v : View} {p : Address}
    {call callee receiver : Node} (ht : t.LaidOut) (hcall : t.callAt s = .ok (p, call))
    (hfix : t.fixAt s v = .ok t') (hne : s.start < s.stop)
    (hstarts : call.StartsWithReceiver callee receiver) :
    (∀ q, ¬ p <+: q →
      (t'.root.at? q).map Node.label = (t.root.at? q).map Node.label ∧
      t'.spanAt? q = (t.spanAt? q).map fun x =>
        shiftAfter x s.stop t.root.span.stop t'.root.span.stop) ∧
    t.root.at? (p ++ [0, 0]) = some receiver ∧
    (∀ r, t'.root.at? (p ++ 0 :: r) = t.root.at? (p ++ 0 :: 0 :: r)) ∧
    ∀ offset, s.stop ≤ offset → t.root.span.stop ≤ offset + t'.root.span.stop := by
  have hfixes := fixesAt_of_fixAt ht hcall hfix hne hstarts
  obtain ⟨-, -, rfl⟩ := callAt_eq_ok hcall
  refine ⟨fun q hpq => ⟨?_, hfixes.spanAt?_outside hpq⟩, hfixes.receiver_at [],
    hfixes.at?_receiver, fun offset => hfixes.root_stop_le⟩
  exact (splicedAt_of_replace hfixes.replaced).outside q hpq

/-- The block `{ d.Select(e=>e.Key)}` around a statement that ends in two empty nodes: a mark that
the text lacks, and a branch without children. -/
def unterminatedCall : Tree :=
  let mark (text : String) : Child := (none, .token text false ⟨0, 0⟩ "" text)
  let statement : Node := Node.ofChildren "expression_statement"
    [(none, Node.projection), (none, .token ";" false ⟨0, 0⟩ "" ""),
      (none, Node.ofChildren "block" [] true)] true
  layout ⟨Node.ofChildren "block" [mark "\x7b", (none, statement), mark "\x7d"] true, "", false⟩

/-- The fix of the call moves the empty nodes right after it, the stops of the nodes around it and
the bracket behind it, and keeps the bracket before it and the receiver. -/
theorem fixAt_tracks_spans_unterminated :
    let t := unterminatedCall
    ∃ t' call callee receiver, t.LaidOut ∧ t.callAt ⟨2, 20⟩ = .ok ([1, 0], call) ∧
      call.StartsWithReceiver callee receiver ∧ t.fixAt ⟨2, 20⟩ .keys = .ok t' ∧
      [[], [0], [1], [1, 1], [1, 2], [2]].map t.spanAt? =
        [⟨0, 21⟩, ⟨0, 1⟩, ⟨2, 20⟩, ⟨20, 20⟩, ⟨20, 20⟩, ⟨20, 21⟩].map some ∧
      [[], [0], [1], [1, 1], [1, 2], [2]].map t'.spanAt? =
        [⟨0, 9⟩, ⟨0, 1⟩, ⟨2, 8⟩, ⟨8, 8⟩, ⟨8, 8⟩, ⟨8, 9⟩].map some ∧
      t'.spanAt? [1, 1] = (t.spanAt? [1, 1]).map (shiftAfter · 20 21 9) ∧
      t'.root.at? [1, 0, 0] = t.root.at? [1, 0, 0, 0] ∧ 21 ≤ 20 + 9 := by
  intro t
  refine ⟨_, _, _, _, rfl, rfl, ⟨rfl, rfl⟩, rfl, by decide, by decide, ?_⟩
  obtain ⟨houtside, -, hreceiver, hexact⟩ :=
    fixAt_tracks_spans (t := t) (s := ⟨2, 20⟩) (v := .keys) rfl rfl rfl (by decide) ⟨rfl, rfl⟩
  exact ⟨(houtside [1, 1] (by decide)).2, hreceiver [], hexact 20 (Nat.le_refl 20)⟩

end Tree

end ViewLint
