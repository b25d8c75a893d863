import ViewLint.Proofs.Tree.Bare

/-!
# Addresses in the order of the traversal

The traversal of a tree comes to the addresses of its nodes in a fixed order. Seen from one node,
this order first lists nodes to the left, then the node itself with all nodes below it, then nodes
to the right; the nodes above it stand between those to the left. Replacing the node keeps the
addresses on both sides.

## Main definitions

* `Node.addresses`: the addresses of all nodes, each before those below it.
* `Address.Above`: an address on the way to another one.
* `Node.leftOf`, `Node.rightOf`: the addresses on both sides of an address.

## Main results

* `Node.filterMap_at?_addresses`: the nodes at these addresses are those of the traversal.
* `Node.filter_not_above_addresses`: the order of the addresses around a node.
* `Node.filter_below_addresses`: the addresses below a node.
* `Node.leftOf_replaceAt`, `Node.rightOf_replaceAt`: a replacement keeps the addresses beside it.
-/

namespace ViewLint

/-- The first address is that of a node above the node at the second. -/
def Address.Above (q p : Address) : Prop :=
  q <+: p ∧ q ≠ p

instance (q p : Address) : Decidable (Address.Above q p) :=
  inferInstanceAs (Decidable (q <+: p ∧ q ≠ p))

namespace Node

mutual

/-- The addresses of a node and of all nodes below it, each before those below it. -/
def addresses : Node → List Address
  | .token .. => [[]]
  | .branch _ _ _ cs => [] :: addressesFrom 0 cs

/-- The addresses of children and of the nodes below them; the first child has index `i`. -/
def addressesFrom : Nat → List (Option String × Node) → List Address
  | _, [] => []
  | i, (_, n) :: cs => n.addresses.map (i :: ·) ++ addressesFrom (i + 1) cs

end

theorem addresses_eq_cons (n : Node) : n.addresses = [] :: addressesFrom 0 n.children := by
  cases n <;> rw [addresses] <;> simp [addressesFrom]

theorem addressesFrom_append (cs ds : List Child) (i : Nat) :
    addressesFrom i (cs ++ ds) = addressesFrom i cs ++ addressesFrom (i + cs.length) ds := by
  induction cs generalizing i with
  | nil => simp [addressesFrom]
  | cons c cs ih =>
    rw [List.cons_append, addressesFrom, addressesFrom, ih, List.append_assoc, List.length_cons,
      Nat.add_assoc, Nat.add_comm 1]

/-- The addresses of children are those before one of them, its own, and those after it. -/
theorem addressesFrom_eq_take_append {cs : List Child} {i : Nat} {c : Child}
    (h : cs[i]? = some c) : addressesFrom 0 cs =
      addressesFrom 0 (cs.take i) ++ c.2.addresses.map (i :: ·) ++
        addressesFrom (i + 1) (cs.drop (i + 1)) := by
  obtain ⟨hi, rfl⟩ := List.getElem?_eq_some_iff.mp h
  have hlen : (cs.take i).length = i := List.length_take_of_le (Nat.le_of_lt hi)
  calc addressesFrom 0 cs
      = addressesFrom 0 (cs.take i ++ (cs[i] :: cs.drop (i + 1))) := by
        rw [← List.drop_eq_getElem_cons hi, List.take_append_drop]
    _ = _ := by
        rw [addressesFrom_append, addressesFrom, hlen, Nat.zero_add, List.append_assoc]

/-- An address below children is the index of one of them and an address of that child. -/
theorem exists_cons_of_mem_addressesFrom {cs : List Child} {i : Nat} {q : Address}
    (h : q ∈ addressesFrom i cs) :
    ∃ j r c, q = (i + j) :: r ∧ cs[j]? = some c ∧ r ∈ c.2.addresses := by
  induction cs generalizing i with
  | nil => simp [addressesFrom] at h
  | cons c cs ih =>
    rw [addressesFrom, List.mem_append, List.mem_map] at h
    rcases h with ⟨r, hr, rfl⟩ | h
    · exact ⟨0, r, c, rfl, rfl, hr⟩
    · obtain ⟨j, r, d, rfl, hd, hr⟩ := ih h
      exact ⟨j + 1, r, d, by rw [Nat.add_assoc, Nat.add_comm 1], hd, hr⟩

/-- There is a node at each of the addresses. -/
theorem exists_at?_of_mem_addresses {n : Node} {q : Address} (h : q ∈ n.addresses) :
    ∃ m, n.at? q = some m := by
  induction n generalizing q with
  | token k nm s leading text =>
    rw [addresses, List.mem_singleton] at h
    exact ⟨_, by rw [h, at?_nil]⟩
  | branch k nm s cs ih =>
    rw [addresses, List.mem_cons] at h
    rcases h with rfl | h
    · exact ⟨_, rfl⟩
    · obtain ⟨j, r, c, rfl, hc, hr⟩ := exists_cons_of_mem_addressesFrom h
      obtain ⟨m, hm⟩ := ih c (List.mem_of_getElem? hc) hr
      rw [Nat.zero_add]
      exact ⟨m, at?_cons_eq_some_iff.mpr ⟨c, hc, hm⟩⟩

/-! ### Nodes at the addresses -/

theorem filterMap_at?_addressesFrom {n : Node} {cs : List Child} {i : Nat}
    (hcs : n.children.drop i = cs)
    (ih : ∀ c ∈ cs, c.2.addresses.filterMap c.2.at? = c.2.preorder) :
    (addressesFrom i cs).filterMap n.at? = preorders cs := by
  induction cs generalizing i with
  | nil => rfl
  | cons c cs ihcs =>
    have hc : n.children[i]? = some c := by
      rw [← List.head?_drop, hcs, List.head?_cons]
    have hrest : n.children.drop (i + 1) = cs := by
      rw [← List.drop_drop, hcs, List.drop_one, List.tail_cons]
    have hat : n.at? ∘ (i :: ·) = c.2.at? := by
      funext r
      rw [Function.comp_apply, at?_cons, hc, Option.bind_some]
    rw [addressesFrom, List.filterMap_append, List.filterMap_map, hat,
      ih c List.mem_cons_self, ihcs hrest fun d hd => ih d (List.mem_cons_of_mem c hd), preorders]

/-- The nodes at the addresses of a tree, in order, are those of the traversal. -/
theorem filterMap_at?_addresses (n : Node) : n.addresses.filterMap n.at? = n.preorder := by
  induction n with
  | token k nm s leading text => rfl
  | branch k nm s cs ih =>
    have hcs : (addressesFrom 0 cs).filterMap (Node.branch k nm s cs).at? = preorders cs :=
      filterMap_at?_addressesFrom rfl ih
    rw [addresses, preorder, List.filterMap_cons_some (at?_nil _), hcs]

/-! ### The addresses around a node -/

/-- The addresses of the nodes to the left of an address. -/
def leftOf (n : Node) : Address → List Address
  | [] => []
  | i :: p => addressesFrom 0 (n.children.take i) ++
      n.children[i]?.elim [] fun c => (c.2.leftOf p).map (i :: ·)

/-- The addresses of the nodes to the right of an address. -/
def rightOf (n : Node) : Address → List Address
  | [] => []
  | i :: p => (n.children[i]?.elim [] fun c => (c.2.rightOf p).map (i :: ·)) ++
      addressesFrom (i + 1) (n.children.drop (i + 1))

theorem leftOf_cons {n : Node} {i : Nat} {c : Child} (h : n.children[i]? = some c) (p : Address) :
    n.leftOf (i :: p) =
      addressesFrom 0 (n.children.take i) ++ (c.2.leftOf p).map (i :: ·) := by
  rw [leftOf, h, Option.elim_some]

theorem rightOf_cons {n : Node} {i : Nat} {c : Child} (h : n.children[i]? = some c) (p : Address) :
    n.rightOf (i :: p) =
      (c.2.rightOf p).map (i :: ·) ++ addressesFrom (i + 1) (n.children.drop (i + 1)) := by
  rw [rightOf, h, Option.elim_some]

/-- The addresses of the first children start with small indices. -/
theorem exists_cons_of_mem_take {cs : List Child} {i : Nat} {q : Address}
    (h : q ∈ addressesFrom 0 (cs.take i)) : ∃ j r, j < i ∧ q = j :: r := by
  obtain ⟨j, r, c, rfl, hc, -⟩ := exists_cons_of_mem_addressesFrom h
  have hj : j < (cs.take i).length := (List.getElem?_eq_some_iff.mp hc).1
  rw [List.length_take] at hj
  exact ⟨0 + j, r, by omega, rfl⟩

/-- Addresses that start with different indices are beside each other. -/
theorem not_prefix_cons {i j : Nat} (h : i ≠ j) (p q : Address) : ¬ i :: p <+: j :: q :=
  fun hpq => h (List.cons_prefix_cons.mp hpq).1

/-- The addresses to the left of an address are neither above nor below it. -/
theorem beside_of_mem_leftOf {n : Node} {p q : Address} (h : q ∈ n.leftOf p) :
    ¬ p <+: q ∧ ¬ q <+: p := by
  induction p generalizing n q with
  | nil => simp [leftOf] at h
  | cons i p ih =>
    rw [leftOf, List.mem_append] at h
    rcases h with h | h
    · obtain ⟨j, r, hji, rfl⟩ := exists_cons_of_mem_take h
      exact ⟨not_prefix_cons (by omega) p r, not_prefix_cons (by omega) r p⟩
    · cases hc : n.children[i]? with
      | none => simp [hc] at h
      | some c =>
        rw [hc, Option.elim_some, List.mem_map] at h
        obtain ⟨r, hr, rfl⟩ := h
        simpa only [List.cons_prefix_cons, true_and] using ih hr

/-- The addresses to the right of an address are neither above nor below it. -/
theorem beside_of_mem_rightOf {n : Node} {p q : Address} (h : q ∈ n.rightOf p) :
    ¬ p <+: q ∧ ¬ q <+: p := by
  induction p generalizing n q with
  | nil => simp [rightOf] at h
  | cons i p ih =>
    rw [rightOf, List.mem_append] at h
    rcases h with h | h
    · cases hc : n.children[i]? with
      | none => simp [hc] at h
      | some c =>
        rw [hc, Option.elim_some, List.mem_map] at h
        obtain ⟨r, hr, rfl⟩ := h
        simpa only [List.cons_prefix_cons, true_and] using ih hr
    · obtain ⟨j, r, -, rfl, -⟩ := exists_cons_of_mem_addressesFrom h
      exact ⟨not_prefix_cons (by omega) p r, not_prefix_cons (by omega) r p⟩

/-- Without the addresses above it, an address has those to the left before it, and those to the
right after it and the addresses below it. -/
theorem filter_not_above_addresses {n m : Node} {p : Address} (h : n.at? p = some m) :
    n.addresses.filter (fun q => ¬ Address.Above q p) =
      n.leftOf p ++ m.addresses.map (p ++ ·) ++ n.rightOf p := by
  induction p generalizing n with
  | nil =>
    obtain rfl := Option.some.inj h
    have hall : n.addresses.filter (fun q => ¬ Address.Above q []) = n.addresses :=
      List.filter_eq_self.mpr fun q _ => by simp [Address.Above]
    rw [hall]
    simp [leftOf, rightOf]
  | cons i p ih =>
    obtain ⟨c, hc, hp⟩ := at?_cons_eq_some_iff.mp h
    have hleft : (addressesFrom 0 (n.children.take i)).filter (fun q => ¬ Address.Above q (i :: p)) =
        addressesFrom 0 (n.children.take i) := by
      refine List.filter_eq_self.mpr fun q hq => ?_
      obtain ⟨j, r, hji, rfl⟩ := exists_cons_of_mem_take hq
      simpa using fun habove : Address.Above (j :: r) (i :: p) =>
        not_prefix_cons (by omega) r p habove.1
    have hright : (addressesFrom (i + 1) (n.children.drop (i + 1))).filter
        (fun q => ¬ Address.Above q (i :: p)) = addressesFrom (i + 1) (n.children.drop (i + 1)) := by
      refine List.filter_eq_self.mpr fun q hq => ?_
      obtain ⟨j, r, -, rfl, -⟩ := exists_cons_of_mem_addressesFrom hq
      simpa using fun habove : Address.Above ((i + 1 + j) :: r) (i :: p) =>
        not_prefix_cons (by omega) r p habove.1
    have hbelow : (fun q => decide (¬ Address.Above q (i :: p))) ∘ (i :: ·) =
        fun q => decide (¬ Address.Above q p) := by
      funext q
      simp [Address.Above]
    rw [addresses_eq_cons, List.filter_cons_of_neg (by simp [Address.Above]),
      addressesFrom_eq_take_append hc, List.filter_append, List.filter_append, hleft, hright,
      List.filter_map, hbelow, ih hp, leftOf_cons hc, rightOf_cons hc]
    simp only [List.map_append, List.map_map, List.append_assoc]
    rfl

theorem mem_addresses_of_mem_leftOf {n m : Node} {p q : Address} (h : n.at? p = some m)
    (hq : q ∈ n.leftOf p) : q ∈ n.addresses := by
  have hmem : q ∈ n.addresses.filter fun q => ¬ Address.Above q p := by
    rw [filter_not_above_addresses h]
    exact List.mem_append_left _ (List.mem_append_left _ hq)
  exact (List.mem_filter.mp hmem).1

theorem mem_addresses_of_mem_rightOf {n m : Node} {p q : Address} (h : n.at? p = some m)
    (hq : q ∈ n.rightOf p) : q ∈ n.addresses := by
  have hmem : q ∈ n.addresses.filter fun q => ¬ Address.Above q p := by
    rw [filter_not_above_addresses h]
    exact List.mem_append_right _ hq
  exact (List.mem_filter.mp hmem).1

/-- The addresses below an address are those of the node there. -/
theorem filter_below_addresses {n m : Node} {p : Address} (h : n.at? p = some m) :
    n.addresses.filter (fun q => p <+: q) = m.addresses.map (p ++ ·) := by
  have hbelow : n.addresses.filter (fun q => p <+: q) =
      (n.addresses.filter fun q => ¬ Address.Above q p).filter fun q => p <+: q := by
    rw [List.filter_filter]
    refine List.filter_congr fun q _ => ?_
    by_cases hpq : p <+: q
    · have hnot : ¬ Address.Above q p := fun hqp => hqp.2 (hqp.1.eq_of_length_le hpq.length_le)
      simp [hpq, hnot]
    · simp [hpq]
  have hleft : (n.leftOf p).filter (fun q => p <+: q) = [] :=
    List.filter_eq_nil_iff.mpr fun q hq => by simpa using (beside_of_mem_leftOf hq).1
  have hright : (n.rightOf p).filter (fun q => p <+: q) = [] :=
    List.filter_eq_nil_iff.mpr fun q hq => by simpa using (beside_of_mem_rightOf hq).1
  have hinside : (m.addresses.map (p ++ ·)).filter (fun q => p <+: q) =
      m.addresses.map (p ++ ·) := by
    refine List.filter_eq_self.mpr fun q hq => ?_
    obtain ⟨r, -, rfl⟩ := List.mem_map.mp hq
    simp
  rw [hbelow, filter_not_above_addresses h, List.filter_append, List.filter_append, hleft, hright,
    hinside, List.nil_append, List.append_nil]

/-! ### Trees of the same shape -/

mutual

@[simp] theorem addresses_bare : ∀ n : Node, n.bare.addresses = n.addresses
  | .token k n s leading text => by rw [bare, addresses, addresses]
  | .branch k n s cs => by rw [bare, addresses, addresses, addressesFrom_bares cs]

theorem addressesFrom_bares : ∀ (cs : List (Option String × Node)) (i : Nat),
    addressesFrom i (bares cs) = addressesFrom i cs
  | [], i => by rw [bares]
  | (f, n) :: cs, i => by
    rw [bares, addressesFrom, addressesFrom, addresses_bare n, addressesFrom_bares cs]

end

/-- A replacement keeps the addresses to the left of the replaced node. -/
theorem leftOf_replaceAt {m m' new : Node} {p : Address} (h : m.replaceAt p new = some m') :
    m'.leftOf p = m.leftOf p := by
  induction p generalizing m m' with
  | nil => rfl
  | cons i p ih =>
    obtain ⟨k, n, s, cs, c, c', rfl, hc, hc', rfl⟩ := replaceAt_cons_eq_some h
    have hi : i < cs.length := (List.getElem?_eq_some_iff.mp hc).1
    have hset : (cs.set i (c.1, c'))[i]? = some (c.1, c') := List.getElem?_set_self hi
    rw [leftOf_cons hset, leftOf_cons hc, ih hc', children_branch, children_branch,
      List.take_set_of_le (Nat.le_refl i)]

/-- A replacement keeps the addresses to the right of the replaced node. -/
theorem rightOf_replaceAt {m m' new : Node} {p : Address} (h : m.replaceAt p new = some m') :
    m'.rightOf p = m.rightOf p := by
  induction p generalizing m m' with
  | nil => rfl
  | cons i p ih =>
    obtain ⟨k, n, s, cs, c, c', rfl, hc, hc', rfl⟩ := replaceAt_cons_eq_some h
    have hi : i < cs.length := (List.getElem?_eq_some_iff.mp hc).1
    have hset : (cs.set i (c.1, c'))[i]? = some (c.1, c') := List.getElem?_set_self hi
    rw [rightOf_cons hset, rightOf_cons hc, ih hc', children_branch, children_branch,
      List.drop_set_of_lt (Nat.lt_succ_self i)]

end Node

end ViewLint
