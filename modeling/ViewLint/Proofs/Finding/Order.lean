import ViewLint.Proofs.Finding.Detect
import ViewLint.Proofs.Tree.Layout
import ViewLint.Proofs.Tree.Traversal

/-!
# The order of findings

The traversal of a laid out tree comes to its nodes in the order in which they start: of two nodes,
the one that is listed first contains the other, or stops before the other starts. The findings of a
tree are listed in the order of its nodes.

## Main results

* `Tree.LaidOut.contains_or_stop_le`: the spans of two nodes of which one is listed first.
* `Tree.LaidOut.pairwise_start_nodes`: the nodes of a laid out tree by their starts.
* `Analyzer.pairwise_start_detect`: the findings of a laid out tree by their starts.
-/

namespace ViewLint

namespace Tree.LaidOut

variable {t : Tree} {n m : Node} {p q : Address}

/-- Of two nodes, the one that is listed first is above the other and contains it, or stops before
the other starts. -/
theorem contains_or_stop_le (ht : t.LaidOut) (hn : t.root.at? p = some n)
    (hm : t.root.at? q = some m) (hpq : p < q) :
    (Address.Above p q ∧ n.span.contains m.span) ∨ n.span.stop ≤ m.span.start := by
  rcases Address.above_or_left_of_lt hpq with habove | ⟨r, i, j, p', q', rfl, rfl, hij⟩
  · obtain ⟨w, rfl⟩ := habove.1
    exact Or.inl ⟨habove, Span.contains_iff.mpr (ht.span_le_of_append hn hm)⟩
  · exact Or.inr (ht.stop_le_start hn hm hij)

/-- The nodes of a laid out tree are listed by their starts. -/
theorem pairwise_start_nodes (ht : t.LaidOut) :
    t.nodes.Pairwise fun n m => n.span.start ≤ m.span.start := by
  rw [nodes_eq_preorder, ← Node.filterMap_at?_addresses]
  refine List.Pairwise.filterMap _ (fun p q hpq n hn m hm => ?_) t.root.pairwise_lt_addresses
  rcases ht.contains_or_stop_le hn hm hpq with ⟨-, hcontains⟩ | hstop
  · exact (Span.contains_iff.mp hcontains).1
  · exact Nat.le_trans (ht.start_le_stop hn) hstop

end Tree.LaidOut

namespace Analyzer

variable {a : Analyzer} {t : Tree} {file : String} {f : Finding}

theorem file_of_mem_detect (h : f ∈ a.detect t file) : f.file = file := by
  obtain ⟨n, -, hn⟩ := List.mem_filterMap.mp h
  obtain ⟨found, -, rfl⟩ := Option.map_eq_some_iff.mp hn
  rfl

/-- The findings of a laid out tree are listed by their starts. -/
theorem pairwise_start_detect (a : Analyzer) (file : String) (ht : t.LaidOut) :
    (a.detect t file).Pairwise fun f g => f.span.start ≤ g.span.start := by
  refine List.Pairwise.filterMap _ (fun n m hnm f hf g hg => ?_) ht.pairwise_start_nodes
  rw [(visit_eq_some hf).1, (visit_eq_some hg).1]
  exact hnm

end Analyzer

end ViewLint
