import Mathlib.Data.List.Basic
import ViewLint.Proofs.Tree.Order

/-!
# The traversal comes to every node once

The nodes of a tree are listed one at a time from a stack: the last node of the stack is listed, and
its children take its place, the last child first. This gives the nodes in the order of the
recursive definition, and then nothing. The addresses in this order increase from left to right, so
no address occurs twice, and of two nodes the one that is listed first is above the other or to the
left of it.

## Main definitions

* `Node.next?`, `Node.yield?`: one step of the traversal, and what its steps list.

## Main results

* `Node.yield?_eq_getElem?_walk`: the steps list the nodes of the traversal, one by one.
* `Node.pairwise_lt_addresses`: the addresses of the nodes increase.
* `Address.above_or_left_of_lt`: what it means that an address comes before another one.
* `Node.mem_addresses_iff`, `Node.map_at?_addresses`: the addresses listed are those of the nodes.
-/

namespace ViewLint

namespace Node

/-! ### Steps of the traversal -/

/-- One step of the traversal. The stack holds the nodes to come, the next one last. This node is
listed, and its children take its place, so that the first of them is last. -/
def next? (stack : List Node) : Option (Node × List Node) :=
  stack.getLast?.map fun n => (n, stack.dropLast ++ (n.children.map (·.2)).reverse)

/-- The node that the step with index `i` lists, if the traversal has not ended before. -/
def yield? (stack : List Node) : Nat → Option Node
  | 0 => (next? stack).map (·.1)
  | i + 1 => (next? stack).bind fun step => yield? step.2 i

theorem next?_reverse_cons (n : Node) (rest : List Node) :
    next? (n :: rest).reverse = some (n, (n.children.map (·.2) ++ rest).reverse) := by
  rw [next?, List.reverse_cons, List.getLast?_concat, Option.map_some, List.dropLast_concat,
    List.reverse_append]

/-- The steps list what is below the stack, one node after the other, and then nothing. -/
theorem yield?_eq_getElem?_walk (stack : List Node) (i : Nat) :
    yield? stack.reverse i = (walk stack)[i]? := by
  induction i generalizing stack with
  | zero =>
    cases stack with
    | nil => rw [walk]; rfl
    | cons n rest => rw [yield?, next?_reverse_cons, walk]; rfl
  | succ i ih =>
    cases stack with
    | nil => rw [walk]; rfl
    | cons n rest =>
      rw [yield?, next?_reverse_cons, Option.bind_some, ih, walk, List.getElem?_cons_succ]

end Node

/-! ### The order of the addresses -/

/-- An address comes before another one if it is above it, or to the left of it. -/
theorem Address.above_or_left_of_lt {p q : Address} (h : p < q) :
    Address.Above p q ∨ ∃ r i j p' q', p = r ++ i :: p' ∧ q = r ++ j :: q' ∧ i < j := by
  induction p generalizing q with
  | nil =>
    refine Or.inl ⟨List.nil_prefix, ?_⟩
    rintro rfl
    exact List.not_lt_nil _ h
  | cons i p ih =>
    cases q with
    | nil => exact absurd h (List.not_lt_nil _)
    | cons j q =>
      rcases List.cons_lt_cons_iff.mp h with hij | ⟨rfl, hpq⟩
      · exact Or.inr ⟨[], i, j, p, q, rfl, rfl, hij⟩
      · rcases ih hpq with ⟨hpre, hne⟩ | ⟨r, k, l, p', q', rfl, rfl, hkl⟩
        · exact Or.inl ⟨List.cons_prefix_cons.mpr ⟨rfl, hpre⟩, by simpa using hne⟩
        · exact Or.inr ⟨i :: r, k, l, p', q', rfl, rfl, hkl⟩

namespace Node

variable {n m : Node} {p : Address}

theorem pairwise_lt_addressesFrom {cs : List Child} (i : Nat)
    (h : ∀ c ∈ cs, c.2.addresses.Pairwise (· < ·)) :
    (addressesFrom i cs).Pairwise (· < ·) := by
  induction cs generalizing i with
  | nil => simp [addressesFrom]
  | cons c cs ih =>
    rw [addressesFrom, List.pairwise_append, List.pairwise_map]
    refine ⟨?_, ih (i + 1) fun d hd => h d (List.mem_cons_of_mem c hd), ?_⟩
    · refine (h c List.mem_cons_self).imp fun hpq => ?_
      exact List.cons_lt_cons_iff.mpr (Or.inr ⟨rfl, hpq⟩)
    · intro p hp q hq
      obtain ⟨p, -, rfl⟩ := List.mem_map.mp hp
      obtain ⟨j, q, -, rfl, -⟩ := exists_cons_of_mem_addressesFrom hq
      exact List.cons_lt_cons_iff.mpr (Or.inl (by omega))

/-- The addresses in the order of the traversal increase. -/
theorem pairwise_lt_addresses (n : Node) : n.addresses.Pairwise (· < ·) := by
  induction n with
  | token k nm s leading text => simp [addresses]
  | branch k nm s cs ih =>
    rw [addresses]
    refine .cons (fun q hq => ?_) (pairwise_lt_addressesFrom 0 ih)
    obtain ⟨j, r, -, rfl, -⟩ := exists_cons_of_mem_addressesFrom hq
    exact List.nil_lt_cons _ _

theorem nodup_addresses (n : Node) : n.addresses.Nodup := by
  refine n.pairwise_lt_addresses.imp ?_
  rintro p _ h rfl
  exact List.lt_irrefl p h

/-- The address of every node is listed. -/
theorem mem_addresses_of_at? (h : n.at? p = some m) : p ∈ n.addresses := by
  induction p generalizing n with
  | nil => simp [addresses_eq_cons]
  | cons i p ih =>
    obtain ⟨c, hc, hp⟩ := at?_cons_eq_some_iff.mp h
    rw [addresses_eq_cons, addressesFrom_eq_take_append hc]
    simp [ih hp]

theorem mem_addresses_iff : p ∈ n.addresses ↔ ∃ m, n.at? p = some m :=
  ⟨exists_at?_of_mem_addresses, fun ⟨_, h⟩ => mem_addresses_of_at? h⟩

/-- The addresses and the nodes of the traversal belong to each other, one by one. -/
theorem map_at?_addresses (n : Node) : n.addresses.map n.at? = n.preorder.map some := by
  rw [← filterMap_at?_addresses, List.map_filterMap, ← List.filterMap_eq_map]
  refine List.filterMap_congr fun q hq => ?_
  obtain ⟨m, hm⟩ := exists_at?_of_mem_addresses hq
  rw [Function.comp_apply, hm, Option.map_some]

end Node

end ViewLint
