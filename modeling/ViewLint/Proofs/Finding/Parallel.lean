import Mathlib.Data.List.Forall2
import Mathlib.Data.List.Induction
import ViewLint.Proofs.Fix.Agreement
import ViewLint.Proofs.Tree.Traversal

/-!
# Findings of nodes in pieces

Every node is judged for itself. The nodes of a tree can therefore be cut into pieces and the
pieces judged in any order, if each result is put where its piece belongs: this gives the findings
of the traversal, one for each node that matches.

## Main definitions

* `Analyzer.slots`: the results of some of the pieces, each in its place.

## Main results

* `Analyzer.getElem?_slots`: the place of a piece is filled as soon as the piece was judged.
* `Analyzer.detectPieces_eq`: the findings of the nodes in pieces.
* `Analyzer.forall₂_filterMap_visit`: one finding for each node that matches.
* `Analyzer.detect_misses_no_node`: the traversal and the pieces give the same findings.
-/

namespace ViewLint

namespace Analyzer

variable {a : Analyzer} {t : Tree} {file : String} {index : Text.LineIndex}
  {pieces : List (List Node)} {order : List Nat}

/-- The places for the results of pieces, after the pieces with the indices in `order` were judged
one after the other, each on its own. The result of a piece is put into the place with its index. -/
def slots (a : Analyzer) (file : String) (index : Text.LineIndex) (pieces : List (List Node))
    (order : List Nat) : List (Option (List Finding)) :=
  order.foldl
    (fun filled i => filled.set i (pieces[i]?.map fun piece => piece.filterMap (a.visit file index)))
    (pieces.map fun _ => none)

theorem slots_concat (order : List Nat) (i : Nat) :
    a.slots file index pieces (order ++ [i]) = (a.slots file index pieces order).set i
      (pieces[i]?.map fun piece => piece.filterMap (a.visit file index)) := by
  rw [slots, slots, List.foldl_concat]

theorem length_slots (order : List Nat) :
    (a.slots file index pieces order).length = pieces.length := by
  induction order using List.reverseRecOn with
  | nil => simp [slots]
  | append_singleton order j ih => rw [slots_concat, List.length_set, ih]

/-- The place of a piece holds its result if the piece was judged, and else nothing. -/
theorem getElem?_slots (order : List Nat) (i : Nat) :
    (a.slots file index pieces order)[i]? = pieces[i]?.map fun piece =>
      if i ∈ order then some (piece.filterMap (a.visit file index)) else none := by
  induction order using List.reverseRecOn with
  | nil =>
    rw [slots, List.foldl_nil, List.getElem?_map]
    exact Option.map_congr fun piece _ => (if_neg List.not_mem_nil).symm
  | append_singleton order j ih =>
    rw [slots_concat, List.getElem?_set, length_slots]
    by_cases hji : j = i
    · subst hji
      cases hpiece : pieces[j]? with
      | none => simpa using hpiece
      | some piece =>
        have hj : j < pieces.length := (List.getElem?_eq_some_iff.mp hpiece).1
        simp [hj]
    · simp [hji, ih, Ne.symm hji]

/-- If all pieces were judged, in whatever order, the places hold the results in order. -/
theorem slots_of_perm (h : order.Perm (List.range pieces.length)) :
    a.slots file index pieces order =
      pieces.map fun piece => some (piece.filterMap (a.visit file index)) := by
  refine List.ext_getElem? fun i => ?_
  rw [getElem?_slots order i, List.getElem?_map]
  refine Option.map_congr fun piece hpiece => ?_
  have hi : i < pieces.length := (List.getElem?_eq_some_iff.mp hpiece).1
  rw [if_pos (h.mem_iff.mpr (List.mem_range.mpr hi))]

/-- The findings of nodes in pieces are those of the nodes. -/
theorem detectPieces_eq (a : Analyzer) (file : String) (index : Text.LineIndex)
    (pieces : List (List Node)) :
    a.detectPieces file index pieces = pieces.flatten.filterMap (a.visit file index) := by
  rw [detectPieces, List.filterMap_flatten]

theorem isSome_visit (a : Analyzer) (file : String) (index : Text.LineIndex) (n : Node) :
    (a.visit file index n).isSome = (a.settings.match? a.model n).isSome := by
  rw [visit, Option.isSome_map]

/-- The nodes that match and the findings belong to each other, one by one. -/
theorem forall₂_filterMap_visit (ns : List Node) :
    List.Forall₂ (fun n f => a.visit file index n = some f)
      (ns.filter fun n => (a.settings.match? a.model n).isSome)
      (ns.filterMap (a.visit file index)) := by
  induction ns with
  | nil => exact .nil
  | cons n ns ih =>
    cases hn : a.visit file index n with
    | none =>
      have hmatch : ¬ (a.settings.match? a.model n).isSome := by
        rw [← isSome_visit a file index, hn]
        exact Bool.false_ne_true
      rwa [List.filter_cons, if_neg hmatch, List.filterMap_cons_none hn]
    | some f =>
      have hmatch : (a.settings.match? a.model n).isSome := by
        rw [← isSome_visit a file index, hn]
        rfl
      rw [List.filter_cons, if_pos hmatch, List.filterMap_cons_some hn]
      exact .cons hn ih

/-- **Pieces and the traversal give the same findings, and miss no node.** The steps of the
traversal list the nodes of a tree in the order of the recursive definition, and then nothing. Each
address that holds a node occurs once, and the nodes listed are those at the addresses. There is one
finding for each node that matches, in that order. However the nodes are cut into pieces, and in
whatever order the pieces are judged, the results in their places are the same findings. -/
theorem detect_misses_no_node (a : Analyzer) (t : Tree) (file : String) :
    let index := Text.LineIndex.ofSource t.text
    (t.nodes = t.root.preorder ∧ ∀ i, Node.yield? [t.root] i = t.root.preorder[i]?) ∧
    (t.root.addresses.Nodup ∧ (∀ p, p ∈ t.root.addresses ↔ ∃ n, t.root.at? p = some n) ∧
      t.root.addresses.map t.root.at? = t.root.preorder.map some) ∧
    List.Forall₂ (fun n f => a.visit file index n = some f)
      (t.root.preorder.filter fun n => (a.settings.match? a.model n).isSome) (a.detect t file) ∧
    (∀ size, a.detectInPieces size t file = a.detect t file) ∧
    ∀ pieces : List (List Node), pieces.flatten = t.nodes →
      a.detectPieces file index pieces = a.detect t file ∧
      ∀ order : List Nat, order.Perm (List.range pieces.length) →
        ((a.slots file index pieces order).filterMap id).flatten = a.detect t file := by
  intro index
  have hpieces (pieces : List (List Node)) (h : pieces.flatten = t.nodes) :
      a.detectPieces file index pieces = a.detect t file := by
    rw [detectPieces_eq, h]
    rfl
  refine ⟨⟨t.nodes_eq_preorder, fun i => ?_⟩,
    ⟨t.root.nodup_addresses, fun p => Node.mem_addresses_iff, t.root.map_at?_addresses⟩, ?_,
    fun size => hpieces _ (flatten_piecesOf size t.nodes), fun pieces h =>
      ⟨hpieces pieces h, fun order horder => ?_⟩⟩
  · rw [← t.nodes_eq_preorder, Tree.nodes, ← Node.yield?_eq_getElem?_walk]
    rfl
  · rw [detect, t.nodes_eq_preorder]
    exact forall₂_filterMap_visit t.root.preorder
  · rw [slots_of_perm horder, List.filterMap_map, ← hpieces pieces h, detectPieces,
      ← List.filterMap_eq_map]
    rfl

/-- The pieces of a tree with two findings, one of them empty, judged from the last one on. -/
theorem detect_misses_no_node_projections :
    let index := Text.LineIndex.ofSource Tree.projections.text
    let pieces := [Tree.projections.nodes.take 9, [], Tree.projections.nodes.drop 9]
    pieces.flatten = Tree.projections.nodes ∧ [2, 0, 1].Perm (List.range pieces.length) ∧
      (ofDictionary.slots "a.cs" index pieces [2]).map (·.map List.length) =
        [none, none, some 1] ∧
      (ofDictionary.detect Tree.projections "a.cs").length = 2 ∧
      ((ofDictionary.slots "a.cs" index pieces [2, 0, 1]).filterMap id).flatten =
        ofDictionary.detect Tree.projections "a.cs" := by
  intro index pieces
  have hflatten : pieces.flatten = Tree.projections.nodes := by simp [pieces]
  have horder : [2, 0, 1].Perm (List.range pieces.length) := by
    change [2, 0, 1].Perm (List.range 3)
    decide
  obtain ⟨-, -, -, -, hpieces⟩ := detect_misses_no_node ofDictionary Tree.projections "a.cs"
  exact ⟨hflatten, horder, by decide +kernel, by decide +kernel,
    (hpieces pieces hflatten).2 [2, 0, 1] horder⟩

end Analyzer

end ViewLint
