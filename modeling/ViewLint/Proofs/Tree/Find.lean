import ViewLint.Proofs.Tree.Layout
import ViewLint.Tree.Find

/-!
# The search for a span

Whatever the spans of a tree are, the search gives a node with the span that was looked for. In a
laid out tree it also finds every span that is not empty: of the nodes with that span, which stand
above each other, it gives the outermost.

## Main results

* `Tree.span_of_locate`: the node found has the span.
* `Tree.LaidOut.locate_span`: the span of a node is found at the outermost address on the way to
  the node that has it.
-/

namespace ViewLint

namespace Node

theorem locate_eq (s : Span) (n : Node) :
    n.locate s = if n.span = s then some [] else locateIn s 0 n.children := by
  cases n <;> rw [locate] <;> rfl

/-! ### What is found -/

mutual

/-- The node found has the span. -/
theorem span_of_locate (s : Span) : ∀ (n : Node) (p : Address), n.locate s = some p →
    ∃ m, n.at? p = some m ∧ m.span = s
  | .token k nm own leading text, p, h => by
    rw [locate] at h
    split at h
    · obtain rfl := Option.some.inj h
      exact ⟨_, rfl, by assumption⟩
    · cases h
  | .branch k nm own cs, p, h => by
    rw [locate] at h
    split at h
    · obtain rfl := Option.some.inj h
      exact ⟨_, rfl, by assumption⟩
    · obtain ⟨j, q, c, m, rfl, hc, hm, hs⟩ := span_of_locateIn s 0 cs p h
      rw [Nat.zero_add]
      exact ⟨m, at?_cons_eq_some_iff.mpr ⟨c, hc, hm⟩, hs⟩

theorem span_of_locateIn (s : Span) : ∀ (i : Nat) (cs : List (Option String × Node)) (p : Address),
    locateIn s i cs = some p →
      ∃ j q c m, p = (i + j) :: q ∧ cs[j]? = some c ∧ c.2.at? q = some m ∧ m.span = s
  | i, [], p, h => by cases h
  | i, (f, n) :: cs, p, h => by
    rw [locateIn] at h
    split at h
    · obtain ⟨q, hq, rfl⟩ := Option.map_eq_some_iff.mp h
      obtain ⟨m, hm, hs⟩ := span_of_locate s n q hq
      exact ⟨0, q, (f, n), m, rfl, rfl, hm, hs⟩
    · obtain ⟨j, q, c, m, rfl, hc, hm, hs⟩ := span_of_locateIn s (i + 1) cs p h
      exact ⟨j + 1, q, c, m, by rw [Nat.add_assoc, Nat.add_comm 1 j], hc, hm, hs⟩

end

/-- The search goes down into the first child that contains the span. -/
theorem locateIn_eq_of_first {s : Span} {c : Child} (hc : c.2.span.contains s = true) :
    ∀ {cs : List Child} {j : Nat} (i : Nat), cs[j]? = some c →
      (∀ k d, k < j → cs[k]? = some d → d.2.span.contains s = false) →
      locateIn s i cs = (c.2.locate s).map ((i + j) :: ·)
  | [], j, i, h, _ => by simp at h
  | (f, n) :: cs, 0, i, h, _ => by
    obtain rfl := Option.some.inj h
    rw [locateIn, hc]
    rfl
  | (f, n) :: cs, j + 1, i, h, hfirst => by
    have hn : n.span.contains s = false := hfirst 0 (f, n) (Nat.succ_pos j) rfl
    have hrest := locateIn_eq_of_first hc (i + 1) (by simpa using h) fun k d hk hd =>
      hfirst (k + 1) d (Nat.succ_lt_succ hk) (by simpa using hd)
    rw [locateIn, if_neg (by simp [hn]), hrest, Nat.add_assoc, Nat.add_comm 1 j]

end Node

theorem Span.contains_iff {s inner : Span} :
    s.contains inner = true ↔ s.start ≤ inner.start ∧ inner.stop ≤ s.stop := by
  rw [Span.contains, Bool.and_eq_true, decide_eq_true_iff, decide_eq_true_iff]

namespace Tree

/-- The address found is that of a node with the span. -/
theorem span_of_locate {t : Tree} {s : Span} {p : Address} (h : t.locate s = some p) :
    ∃ n, t.root.at? p = some n ∧ n.span = s := by
  rw [locate] at h
  split at h
  · exact Node.span_of_locate s t.root p h
  · cases h

namespace LaidOut

variable {t : Tree} {a n : Node} {r p : Address}

/-- The search below a node that stands above another one finds the span of the latter. -/
theorem locate_span_below (ht : t.LaidOut) (ha : t.root.at? r = some a)
    (hn : t.root.at? (r ++ p) = some n) (hne : n.span.start < n.span.stop) :
    ∃ q, q <+: p ∧ a.locate n.span = some q ∧
      ∀ q' m, q' <+: q → q' ≠ q → a.at? q' = some m → m.span ≠ n.span := by
  induction p generalizing r a with
  | nil =>
    rw [List.append_nil, ha] at hn
    obtain rfl := Option.some.inj hn
    refine ⟨[], List.prefix_rfl, by rw [Node.locate_eq]; simp, ?_⟩
    intro q' m hq' hne'
    exact absurd (List.prefix_nil.mp hq') hne'
  | cons i p ih =>
    rw [Node.locate_eq]
    by_cases hs : a.span = n.span
    · refine ⟨[], List.nil_prefix, by simp [hs], ?_⟩
      intro q' m hq' hne'
      exact absurd (List.prefix_nil.mp hq') hne'
    · have han : a.at? (i :: p) = some n := by rwa [Node.at?_append_of_eq_some ha] at hn
      obtain ⟨c, hc, -⟩ := Node.at?_cons_eq_some_iff.mp han
      have hchild (k : Nat) (d : Child) (hd : a.children[k]? = some d) :
          t.root.at? (r ++ [k]) = some d.2 := by
        rw [Node.at?_append_of_eq_some ha, Node.at?_cons, hd]
        rfl
      have hn' : t.root.at? ((r ++ [i]) ++ p) = some n := by
        rwa [List.append_assoc, List.singleton_append]
      obtain ⟨q, hq, hloc, hmin⟩ := ih (hchild i c hc) hn'
      have hcont : c.2.span.contains n.span = true :=
        Span.contains_iff.mpr (ht.span_le_of_append (hchild i c hc) hn')
      -- A child further left stops before the wanted span starts, so it does not contain it.
      have hleft (k : Nat) (d : Child) (hk : k < i) (hd : a.children[k]? = some d) :
          d.2.span.contains n.span = false := by
        have hstop := ht.stop_le_start (hchild k d hd) hn hk
        rw [← Bool.not_eq_true, Span.contains_iff]
        omega
      refine ⟨i :: q, List.cons_prefix_cons.mpr ⟨rfl, hq⟩, ?_, ?_⟩
      · rw [if_neg hs, Node.locateIn_eq_of_first hcont 0 hc hleft, hloc, Nat.zero_add]
        rfl
      · intro q' m hq' hne' hm
        cases q' with
        | nil =>
          obtain rfl := Option.some.inj hm
          exact hs
        | cons j q' =>
          obtain ⟨rfl, hq''⟩ := List.cons_prefix_cons.mp hq'
          obtain ⟨d, hd, hm⟩ := Node.at?_cons_eq_some_iff.mp hm
          obtain rfl : c = d := Option.some.inj (hc.symm.trans hd)
          exact hmin q' m hq'' (fun h => hne' (congrArg _ h)) hm

/-- The span of a node, if not empty, is found on the way to the node, at the outermost address
that has it. -/
theorem locate_span (ht : t.LaidOut) (hn : t.root.at? p = some n)
    (hne : n.span.start < n.span.stop) :
    ∃ q, q <+: p ∧ t.locate n.span = some q ∧
      ∀ q' m, q' <+: q → q' ≠ q → t.root.at? q' = some m → m.span ≠ n.span := by
  have hroot : t.root.span.contains n.span = true :=
    Span.contains_iff.mpr (ht.span_le_of_append (p := []) rfl hn)
  rw [locate, if_pos hroot]
  exact ht.locate_span_below (r := []) rfl hn hne

end LaidOut

end Tree

end ViewLint
