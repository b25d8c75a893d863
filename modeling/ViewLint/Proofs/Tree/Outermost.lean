import Mathlib.Logic.Relation
import ViewLint.Proofs.Tree.Order
import ViewLint.Proofs.Tree.Wrapper

/-!
# The search finds the outermost node

The search for a span goes down from the root, always into the first child that contains the span,
and never back. In a laid out tree this loses nothing if the span is not empty: nodes with the same
span stand above each other, and the search meets the uppermost of them, which is also the first
that the traversal comes to. Empty spans can be missed, as a node that stops where they stand
contains them too; but also then the search ends, and gives no node with another span.

## Main definitions

* `Node.Descends`: one step of the search.

## Main results

* `Node.wellFounded_descends`: the search ends.
* `Node.bind_locate_eq_some_iff`: the node found is where the steps lead to.
* `Node.find?_addresses`: an address above all others with a property comes first.
* `Tree.LaidOut.prefix_of_spanAt?`: the node found is above all others with its span.
* `Tree.find?_outermost`: the search finds the outermost node with a span.
-/

namespace ViewLint

open Relation

namespace Node

variable {n c m : Node} {s : Span}

/-! ### The steps of the search -/

/-- One step of the search for a span: from a node with another span to its first child that
contains the span. -/
def Descends (s : Span) (n c : Node) : Prop :=
  n.span ≠ s ∧ (n.children.find? fun d => d.2.span.contains s).map (·.2) = some c

theorem size_le_sizes {d : Child} : ∀ {cs : List Child}, d ∈ cs → d.2.size ≤ sizes cs
  | (f, n) :: cs, h => by
    rw [sizes]
    rcases List.mem_cons.mp h with rfl | h
    · exact Nat.le_add_right _ _
    · exact Nat.le_trans (size_le_sizes h) (Nat.le_add_left _ _)

theorem size_lt_of_descends (h : Descends s n c) : c.size < n.size := by
  obtain ⟨d, hd, rfl⟩ := Option.map_eq_some_iff.mp h.2
  have hle := size_le_sizes (List.mem_of_find?_eq_some hd)
  rw [size_eq_succ n, stackSize_children]
  omega

/-- The search ends, whatever the span and the tree are. -/
theorem wellFounded_descends (s : Span) : WellFounded fun c n => Descends s n c :=
  Subrelation.wf size_lt_of_descends (measure size).wf

theorem bind_locateIn {cs : List Child} {i : Nat} (hcs : n.children.drop i = cs) :
    (locateIn s i cs).bind n.at? =
      (cs.find? fun d => d.2.span.contains s).bind fun d => (d.2.locate s).bind d.2.at? := by
  induction cs generalizing i with
  | nil => rfl
  | cons d cs ih =>
    have hd : n.children[i]? = some d := by rw [← List.head?_drop, hcs, List.head?_cons]
    rw [locateIn, List.find?_cons]
    split
    next h =>
      rw [h, Option.bind_map]
      refine congrArg _ (funext fun q => ?_)
      rw [Function.comp_apply, at?_cons, hd, Option.bind_some]
    next h =>
      rw [Bool.not_eq_true] at h
      rw [h, ih (by rw [← List.drop_drop, hcs, List.drop_one, List.tail_cons])]

/-- The search as a loop: it stops at a node with the span, and else goes on from the first child
that contains it. -/
theorem bind_locate (s : Span) (n : Node) :
    (n.locate s).bind n.at? = if n.span = s then some n else
      (n.children.find? fun d => d.2.span.contains s).bind fun d =>
        (d.2.locate s).bind d.2.at? := by
  rw [locate_eq]
  split
  · rfl
  · exact bind_locateIn rfl

/-- The search finds a node if and only if its steps lead to it and it has the span. -/
theorem bind_locate_eq_some_iff :
    (n.locate s).bind n.at? = some m ↔ ReflTransGen (Descends s) n m ∧ m.span = s := by
  constructor
  · intro h
    induction n using (measure size).wf.induction with
    | _ n ih =>
      rw [bind_locate] at h
      split at h
      next hs =>
        obtain rfl := Option.some.inj h
        exact ⟨.refl, hs⟩
      next hs =>
        obtain ⟨d, hd, h⟩ := Option.bind_eq_some_iff.mp h
        have hstep : Descends s n d.2 := ⟨hs, by rw [hd, Option.map_some]⟩
        obtain ⟨hchain, hm⟩ := ih d.2 (size_lt_of_descends hstep) h
        exact ⟨.head hstep hchain, hm⟩
  · rintro ⟨hchain, hm⟩
    induction hchain using ReflTransGen.head_induction_on with
    | refl => rw [bind_locate, if_pos hm]
    | head hstep _ ih =>
      obtain ⟨d, hd, rfl⟩ := Option.map_eq_some_iff.mp hstep.2
      rw [bind_locate, if_neg hstep.1, hd, Option.bind_some, ih]

/-! ### The first address -/

/-- If all addresses with a property are below one of them, that one comes first in the order of the
traversal. -/
theorem find?_addresses {P : Address → Bool} {q : Address} (hq : n.at? q = some m)
    (hP : P q = true) (hall : ∀ p ∈ n.addresses, P p = true → q <+: p) :
    n.addresses.find? P = some q := by
  induction q generalizing n P with
  | nil => rw [addresses_eq_cons, List.find?_cons, hP]
  | cons i q ih =>
    obtain ⟨c, hc, hq⟩ := at?_cons_eq_some_iff.mp hq
    have haddresses := addressesFrom_eq_take_append hc
    have hmem (p : Address) (hp : p ∈ addressesFrom 0 n.children) : p ∈ n.addresses := by
      rw [addresses_eq_cons]
      exact List.mem_cons_of_mem _ hp
    have hroot : P [] = false := by
      rw [← Bool.not_eq_true]
      intro h
      have hnil := hall [] (by rw [addresses_eq_cons]; exact List.mem_cons_self) h
      exact absurd (List.prefix_nil.mp hnil) (List.cons_ne_nil i q)
    -- An address further left goes through another child, so it is not below `i :: q`.
    have hleft : (addressesFrom 0 (n.children.take i)).find? P = none := by
      rw [List.find?_eq_none]
      intro p hp h
      have hpre := hall p (hmem p (by rw [haddresses]; simp [hp])) h
      obtain ⟨j, r, hj, rfl⟩ := exists_cons_of_mem_take hp
      exact not_prefix_cons (by omega) q r hpre
    have hchild : c.2.addresses.find? (P ∘ (i :: ·)) = some q := by
      refine ih hq hP fun p hp h => ?_
      have hpre := hall (i :: p) (hmem _ (by rw [haddresses]; simp [hp])) h
      exact (List.cons_prefix_cons.mp hpre).2
    rw [addresses_eq_cons, List.find?_cons, hroot, haddresses, List.find?_append,
      List.find?_append, hleft, List.find?_map, hchild]
    rfl

end Node

namespace Tree

variable {t : Tree} {n : Node} {s : Span} {p q : Address}

/-- The search finds a node if and only if the root contains the span, the steps of the search lead
to the node, and it has the span. -/
theorem find?_eq_some_iff : t.find? s = some n ↔
    t.root.span.contains s = true ∧ ReflTransGen (Node.Descends s) t.root n ∧ n.span = s := by
  rw [find?, locate, ← Node.bind_locate_eq_some_iff]
  split
  next h => simp [h]
  next h => simp [h]

namespace LaidOut

/-- The node found is above all other nodes with its span. -/
theorem prefix_of_spanAt? (ht : t.LaidOut) (hs : s.start < s.stop) (hp : t.locate s = some p)
    (hq : t.spanAt? q = some s) : p <+: q := by
  obtain ⟨n, hn, rfl⟩ := spanAt?_eq_some_iff.mp hq
  obtain ⟨r, hr, hloc, -⟩ := ht.locate_span hn hs
  obtain rfl := Option.some.inj (hp.symm.trans hloc)
  exact hr

/-- The search comes to the address of a node with the span if there is one. -/
theorem exists_locate (ht : t.LaidOut) (hs : s.start < s.stop) (hq : t.spanAt? q = some s) :
    ∃ p, t.locate s = some p := by
  obtain ⟨n, hn, rfl⟩ := spanAt?_eq_some_iff.mp hq
  obtain ⟨p, -, hloc, -⟩ := ht.locate_span hn hs
  exact ⟨p, hloc⟩

/-- The address found is the first, in the order of the traversal, of a node with the span. -/
theorem locate_eq_find? (ht : t.LaidOut) (hs : s.start < s.stop) :
    t.locate s = t.root.addresses.find? fun q => decide (t.spanAt? q = some s) := by
  cases hloc : t.locate s with
  | some p =>
    obtain ⟨n, hn, hspan⟩ := span_of_locate hloc
    refine (Node.find?_addresses hn ?_ ?_).symm
    · exact decide_eq_true (spanAt?_eq_some_iff.mpr ⟨n, hn, hspan⟩)
    · exact fun q _ hq => ht.prefix_of_spanAt? hs hloc (of_decide_eq_true hq)
  | none =>
    refine (List.find?_eq_none.mpr fun q _ hq => ?_).symm
    obtain ⟨p, hp⟩ := ht.exists_locate hs (of_decide_eq_true hq)
    rw [hp] at hloc
    cases hloc

/-- The node found is the first of the traversal with the span. -/
theorem find?_eq_find?_nodes (ht : t.LaidOut) (hs : s.start < s.stop) :
    t.find? s = t.nodes.find? fun n => decide (n.span = s) := by
  rw [find?, ht.locate_eq_find? hs, nodes_eq_preorder, ← Node.filterMap_at?_addresses,
    List.find?_filterMap]
  congr 2
  funext q
  rw [spanAt?]
  cases t.root.at? q <;> simp

end LaidOut

/-- **The search finds the outermost node.** In a laid out tree, take a span that is not empty. The
search comes to the first address of the traversal whose node has the span, and gives the first node
that has it. The address is above those of all other nodes with the span, and nothing is found only
if no node has it. For all spans, also those that are empty or run backwards, the search ends, and
gives a node exactly if its steps lead to the node and it has that span. -/
theorem find?_outermost (ht : t.LaidOut) :
    (∀ s : Span, s.start < s.stop →
      (t.locate s = t.root.addresses.find? fun q => decide (t.spanAt? q = some s)) ∧
      (t.find? s = t.nodes.find? fun n => decide (n.span = s)) ∧
      (∀ p, t.locate s = some p → ∀ q, t.spanAt? q = some s → p <+: q) ∧
      (t.find? s = none ↔ ∀ n ∈ t.nodes, n.span ≠ s)) ∧
    ∀ s : Span, (WellFounded fun c n => Node.Descends s n c) ∧
      (∀ n, t.find? s = some n → n ∈ t.nodes ∧ n.span = s) ∧
      ∀ n, t.find? s = some n ↔ t.root.span.contains s = true ∧
        ReflTransGen (Node.Descends s) t.root n ∧ n.span = s := by
  refine ⟨fun s hs => ⟨ht.locate_eq_find? hs, ht.find?_eq_find?_nodes hs, ?_, ?_⟩, fun s =>
    ⟨Node.wellFounded_descends s, fun n hn => ?_, fun n => find?_eq_some_iff⟩⟩
  · exact fun p hp q hq => ht.prefix_of_spanAt? hs hp hq
  · rw [ht.find?_eq_find?_nodes hs, List.find?_eq_none]
    simp
  · obtain ⟨p, -, hat⟩ := Option.bind_eq_some_iff.mp hn
    exact ⟨mem_nodes_of_at? hat, (find?_eq_some_iff.mp hn).2.2⟩

/-- The block `{ x}` around a statement with an empty mark at its end, which the text lacks. -/
def unterminated : Tree :=
  let mark (text : String) : Child := (none, .token text false ⟨0, 0⟩ "" text)
  let name : Node := .token "identifier" true ⟨0, 0⟩ " " "x"
  let statement : Node := Node.ofChildren "expression_statement"
    [(none, name), (none, .token ";" false ⟨0, 0⟩ "" "")] true
  layout ⟨Node.ofChildren "block" [mark "\x7b", (none, statement), mark "\x7d"] true, "", false⟩

/-- The statement is found, and not the name with the same span. The empty span of the mark is
missed, as the name before it contains it. -/
theorem find?_outermost_unterminated :
    unterminated.LaidOut ∧ unterminated.locate ⟨2, 3⟩ = some [1] ∧
      unterminated.spanAt? [1, 0] = some ⟨2, 3⟩ ∧ ([1] : Address) <+: [1, 0] ∧
      (unterminated.find? ⟨2, 3⟩).map Node.kind = some "expression_statement" ∧
      (unterminated.find? ⟨2, 3⟩ = unterminated.nodes.find? fun n => decide (n.span = ⟨2, 3⟩)) ∧
      (∀ n ∈ unterminated.nodes, n.span ≠ ⟨1, 3⟩) ∧
      unterminated.spanAt? [1, 1] = some ⟨3, 3⟩ ∧ unterminated.find? ⟨3, 3⟩ = none := by
  have ht : unterminated.LaidOut := rfl
  have hall := find?_outermost ht
  obtain ⟨-, hfirst, habove, -⟩ := hall.1 ⟨2, 3⟩ (by decide)
  obtain ⟨-, -, -, hnone⟩ := hall.1 ⟨1, 3⟩ (by decide)
  exact ⟨ht, rfl, rfl, habove [1] rfl [1, 0] rfl, rfl, hfirst, hnone.mp rfl, rfl, rfl⟩

end Tree

end ViewLint
