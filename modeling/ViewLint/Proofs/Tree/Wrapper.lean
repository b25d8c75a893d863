import Mathlib.Tactic.ByContra
import ViewLint.Proofs.Tree.Find

/-!
# Nodes with the same span

Where every token has a text and every branch a child, no span of a laid out tree is empty. Then
a node has the span of a node below it only if it has a single child: it is a wrapper. The search
for a span finds the outermost wrapper.

## Main definitions

* `Node.Solid`: a token has a text, a branch a child.
* `Tree.spanAt?`: the span of the node at an address.
* `Tree.wrappers`: the number of nodes above an address with the span of the node there.

## Main results

* `Tree.LaidOut.start_lt_stop`: no span is empty.
* `Tree.LaidOut.children_eq_singleton`: a wrapper has a single child.
* `Tree.LaidOut.locate_wrapper`: how far above a node its span is found.
-/

namespace ViewLint

namespace Node

/-- A token has a text, and a branch has a child. -/
def Solid : Node → Prop
  | .token _ _ _ _ text => text ≠ ""
  | .branch _ _ _ cs => cs ≠ []

instance : DecidablePred Solid
  | .token _ _ _ _ text => inferInstanceAs (Decidable (text ≠ ""))
  | .branch _ _ _ cs => decidable_of_iff (cs.isEmpty = false) (by simp [Solid])

/-- Whether a node is solid can be told from its label. -/
theorem solid_of_label_eq {n n' : Node} (h : n.label = n'.label) (hn : n.Solid) : n'.Solid := by
  cases n with
  | token k nm s leading text =>
    cases n' with
    | token k' nm' s' leading' text' =>
      simp only [label, Prod.mk.injEq, Option.some.injEq] at h
      rw [Solid, ← h.2.2.1.2]
      exact hn
    | branch => simp [label] at h
  | branch k nm s cs =>
    cases n' with
    | token => simp [label] at h
    | branch k' nm' s' cs' =>
      simp only [label, Prod.mk.injEq] at h
      rintro rfl
      exact hn (List.map_eq_nil_iff.mp h.2.2.2)

/-- A node that is solid all the way down has a text. -/
theorem size_text_pos {n : Node} (h : ∀ p m, n.at? p = some m → m.Solid) :
    0 < n.text.utf8ByteSize := by
  induction n with
  | token k nm s leading text =>
    have hne : text ≠ "" := h [] _ rfl
    rw [Node.text]
    exact Nat.pos_of_ne_zero fun h => hne (String.utf8ByteSize_eq_zero_iff.mp h)
  | branch k nm s cs ih =>
    have hne : cs ≠ [] := h [] _ rfl
    obtain ⟨⟨f, c⟩, ds, rfl⟩ := List.exists_cons_of_ne_nil hne
    have hc : 0 < c.text.utf8ByteSize := ih (f, c) List.mem_cons_self fun p m hm =>
      h (0 :: p) m (at?_cons_eq_some_iff.mpr ⟨(f, c), rfl, hm⟩)
    rw [Node.text, textOfFirst, String.utf8ByteSize_append]
    omega

end Node

theorem Span.eq_iff {s s' : Span} : s = s' ↔ s.start = s'.start ∧ s.stop = s'.stop := by
  cases s
  cases s'
  rw [Span.mk.injEq]

theorem countP_range_ge (m l : Nat) :
    (List.range l).countP (fun k => decide (m ≤ k)) = l - m := by
  induction l with
  | zero => rw [List.range_zero, List.countP_nil, Nat.zero_sub]
  | succ l ih =>
    rw [List.range_succ, List.countP_append, ih, List.countP_singleton]
    by_cases h : m ≤ l
    · rw [if_pos (decide_eq_true h)]
      omega
    · rw [if_neg (by simpa using h)]
      omega

namespace Tree

/-- The span of the node at an address. -/
def spanAt? (t : Tree) (p : Address) : Option Span :=
  (t.root.at? p).map Node.span

theorem spanAt?_eq_some_iff {t : Tree} {p : Address} {s : Span} :
    t.spanAt? p = some s ↔ ∃ n, t.root.at? p = some n ∧ n.span = s :=
  Option.map_eq_some_iff

theorem spanAt?_of_at? {t : Tree} {p : Address} {n : Node} (h : t.root.at? p = some n) :
    t.spanAt? p = some n.span := by
  rw [spanAt?, h, Option.map_some]

/-- The number of nodes above an address that have the same span as the node there. -/
def wrappers (t : Tree) (p : Address) : Nat :=
  (List.range p.length).countP fun k => decide (t.spanAt? (p.take k) = t.spanAt? p)

namespace LaidOut

variable {t : Tree} {n m : Node} {p q : Address}

/-- A node between two nodes with the same span has it too. -/
theorem span_eq_of_between {a : Node} {r : Address} (ht : t.LaidOut)
    (hn : t.root.at? p = some n) (hm : t.root.at? (p ++ q) = some m)
    (ha : t.root.at? (p ++ q ++ r) = some a) (hspan : a.span = n.span) : m.span = n.span := by
  have hout := ht.span_le_of_append hn hm
  have hin := ht.span_le_of_append hm ha
  rw [hspan] at hin
  rw [Span.eq_iff]
  omega

/-- No node of a solid tree has an empty span. -/
theorem start_lt_stop (ht : t.LaidOut) (hsolid : ∀ n ∈ t.nodes, n.Solid)
    (hn : t.root.at? p = some n) : n.span.start < n.span.stop := by
  have htext := Node.size_text_pos (n := n) fun q m hm =>
    hsolid m (mem_nodes_of_at? (p := p ++ q) (by rwa [Node.at?_append_of_eq_some hn]))
  rw [ht.span_eq hn, Node.fullText_eq_lead_append_text, String.utf8ByteSize_append]
  dsimp only
  omega

/-- A node with the span of a node below it has a single child, which has the span too. -/
theorem children_eq_singleton {i : Nat} (ht : t.LaidOut) (hsolid : ∀ n ∈ t.nodes, n.Solid)
    (hn : t.root.at? p = some n) (hm : t.root.at? (p ++ i :: q) = some m)
    (hspan : m.span = n.span) : ∃ c, n.children = [c] ∧ i = 0 ∧ c.2.span = n.span := by
  have hchild (k : Nat) (hk : k < n.children.length) :
      t.root.at? (p ++ [k]) = some n.children[k].2 :=
    Node.at?_append_child hn (List.getElem?_eq_getElem hk)
  have hnm : n.at? (i :: q) = some m := by rwa [Node.at?_append_of_eq_some hn] at hm
  obtain ⟨c, hc, -⟩ := Node.at?_cons_eq_some_iff.mp hnm
  obtain ⟨hi, rfl⟩ := List.getElem?_eq_some_iff.mp hc
  have hci : n.children[i].2.span = n.span :=
    ht.span_eq_of_between (q := [i]) (r := q) hn (hchild i hi)
      (by rwa [List.append_assoc, List.singleton_append]) hspan
  -- Another child would be beside this one, inside of the node, and not empty.
  have honly (k : Nat) (hk : k < n.children.length) : k = i := by
    have hpos := ht.start_lt_stop hsolid (hchild k hk)
    have hin := ht.span_le_of_append hn (hchild k hk)
    rcases Nat.lt_trichotomy k i with hki | hki | hki
    · have := ht.stop_le_start (hchild k hk) (hchild i hi) hki
      rw [hci] at this
      omega
    · exact hki
    · have := ht.stop_le_start (hchild i hi) (hchild k hk) hki
      rw [hci] at this
      omega
  have hzero : 0 = i := honly 0 (Nat.lt_of_le_of_lt (Nat.zero_le i) hi)
  subst hzero
  have hlen : n.children.length = 1 := by
    by_contra hne
    exact absurd (honly 1 (by omega)) (by decide)
  obtain ⟨d, hd⟩ := List.length_eq_one_iff.mp hlen
  refine ⟨d, hd, rfl, ?_⟩
  simpa [hd] using hci

/-- The number of wrappers of a node tells how far above it its span is found. -/
theorem locate_wrapper (ht : t.LaidOut) (hsolid : ∀ n ∈ t.nodes, n.Solid)
    (hn : t.root.at? p = some n) :
    ∃ q r, p = q ++ r ∧ t.locate n.span = some q ∧ t.wrappers p = r.length := by
  obtain ⟨q, ⟨r, rfl⟩, hloc, hmin⟩ := ht.locate_span hn (ht.start_lt_stop hsolid hn)
  obtain ⟨a, ha, hspan⟩ := span_of_locate hloc
  refine ⟨q, r, rfl, hloc, ?_⟩
  have hwrap (k : Nat) (hk : k < (q ++ r).length) :
      t.spanAt? ((q ++ r).take k) = t.spanAt? (q ++ r) ↔ q.length ≤ k := by
    obtain ⟨b, hb⟩ := Node.exists_at?_above hn ( List.take_prefix k (q ++ r))
    rw [spanAt?_of_at? hb, spanAt?_of_at? hn, Option.some.injEq]
    constructor
    · intro hbn
      by_contra hlt
      rw [List.take_append_of_le_length (by omega)] at hb
      have hne : q.take k ≠ q := fun h => hlt (by rw [← h, List.length_take]; omega)
      exact hmin (q.take k) b ( List.take_prefix k q) hne hb hbn
    · intro hle
      have htake : (q ++ r).take k = q ++ r.take (k - q.length) := by
        rw [List.take_append, List.take_of_length_le hle]
      rw [htake] at hb
      refine (ht.span_eq_of_between (r := r.drop (k - q.length)) ha hb ?_ hspan.symm).trans hspan
      rwa [List.append_assoc, List.take_append_drop]
  calc t.wrappers (q ++ r)
      = (List.range (q ++ r).length).countP (fun k => decide (q.length ≤ k)) := by
        refine List.countP_congr fun k hk => ?_
        rw [decide_eq_true_iff, decide_eq_true_iff, hwrap k (List.mem_range.mp hk)]
    _ = r.length := by rw [countP_range_ge, List.length_append, Nat.add_sub_cancel_left]

end LaidOut

end Tree

end ViewLint
