import ViewLint.Tree.Basic

/-!
# Nodes and their addresses

An address is a list of child indices. This module says which node stands at an address, what
replacing one node does to the nodes at all other addresses, and that the traversal of a tree
lists exactly the nodes at its addresses.

## Main results

* `Node.at?_append`: descending along a joined address.
* `Node.replaceAt_eq_some`, `Node.at?_of_replaceAt`: a node can be replaced exactly where there
  is one.
* `Node.at?_replaceAt_append`, `Node.at?_replaceAt_of_disjoint`, `Node.at?_replaceAt_of_append`:
  the nodes below, beside and above a replaced one.
* `Node.walk_eq_flatMap_preorder`, `Tree.mem_nodes_iff`: the traversal and the addresses.
-/

namespace ViewLint

namespace Node

/-- Induction over a node: the children of a branch are smaller than the branch. -/
@[elab_as_elim, induction_eliminator]
theorem induct {motive : Node → Prop}
    (token : ∀ k n s l x, motive (.token k n s l x))
    (branch : ∀ k n s cs, (∀ c ∈ cs, motive c.2) → motive (.branch k n s cs)) :
    ∀ n, motive n := by
  intro n
  refine @Node.rec motive (fun cs => ∀ c ∈ cs, motive c.2) (fun c => motive c.2) token branch
    ?_ ?_ (fun _ _ h => h) n
  · intro c hc
    exact absurd hc List.not_mem_nil
  · intro c cs hc hcs d hd
    rcases List.mem_cons.mp hd with rfl | hd
    · exact hc
    · exact hcs d hd

/-! ### The node at an address -/

@[simp] theorem children_token (k : String) (n : Bool) (s : Span) (l x : String) :
    (Node.token k n s l x).children = [] := rfl

@[simp] theorem children_branch (k : String) (n : Bool) (s : Span) (cs : List Child) :
    (Node.branch k n s cs).children = cs := rfl

@[simp] theorem at?_nil (n : Node) : n.at? [] = some n := rfl

theorem at?_cons (n : Node) (i : Nat) (p : Address) :
    n.at? (i :: p) = n.children[i]?.bind fun c => c.2.at? p := rfl

theorem at?_cons_eq_some_iff {n m : Node} {i : Nat} {p : Address} :
    n.at? (i :: p) = some m ↔ ∃ c, n.children[i]? = some c ∧ c.2.at? p = some m := by
  rw [at?_cons, Option.bind_eq_some_iff]

theorem at?_append (n : Node) (p q : Address) :
    n.at? (p ++ q) = (n.at? p).bind fun m => m.at? q := by
  induction p generalizing n with
  | nil => rfl
  | cons i p ih =>
    rw [List.cons_append, at?_cons, at?_cons]
    cases n.children[i]? with
    | none => rfl
    | some c => exact ih c.2

/-- A node below another one is found by going on from there. -/
theorem at?_append_of_eq_some {n m : Node} {p : Address} (h : n.at? p = some m) (q : Address) :
    n.at? (p ++ q) = m.at? q := by
  rw [at?_append, h, Option.bind_some]

/-- A child of the node at an address stands at the address extended by its index. -/
theorem at?_append_child {n m : Node} {p : Address} {i : Nat} {c : Child}
    (h : n.at? p = some m) (hc : m.children[i]? = some c) : n.at? (p ++ [i]) = some c.2 := by
  rw [at?_append_of_eq_some h, at?_cons, hc]
  rfl

/-- Every address on the way to a node holds a node. -/
theorem exists_at?_of_append {n m : Node} {p q : Address} (h : n.at? (p ++ q) = some m) :
    ∃ a, n.at? p = some a ∧ a.at? q = some m := by
  rw [at?_append] at h
  exact Option.bind_eq_some_iff.mp h

theorem exists_at?_above {n m : Node} {p q : Address} (h : n.at? q = some m)
    (hpq : p <+: q) : ∃ a, n.at? p = some a := by
  obtain ⟨r, rfl⟩ := hpq
  obtain ⟨a, ha, -⟩ := exists_at?_of_append h
  exact ⟨a, ha⟩

/-! ### Replacing a node -/

theorem replaceAt_nil (n new : Node) : n.replaceAt [] new = some new := by
  cases n <;> rw [replaceAt]

theorem replaceIn_eq (new : Node) (p : Address) : ∀ (cs : List Child) (i : Nat),
    replaceIn cs i p new =
      cs[i]?.bind fun c => (c.2.replaceAt p new).map fun c' => cs.set i (c.1, c')
  | [], i => by simp [replaceIn]
  | c :: cs, 0 => by simp [replaceIn]
  | c :: cs, i + 1 => by
    rw [replaceIn, replaceIn_eq new p cs i, List.getElem?_cons_succ]
    cases cs[i]? with
    | none => rfl
    | some d => simp [Function.comp_def]

/-- Replacing below a branch replaces inside one child. -/
theorem replaceAt_cons (k : String) (n : Bool) (s : Span) (cs : List Child) (i : Nat)
    (p : Address) (new : Node) :
    (Node.branch k n s cs).replaceAt (i :: p) new =
      cs[i]?.bind fun c =>
        (c.2.replaceAt p new).map fun c' => .branch k n s (cs.set i (c.1, c')) := by
  rw [replaceAt, replaceIn_eq]
  cases cs[i]? with
  | none => rfl
  | some c => simp [Function.comp_def]

/-- What a replacement at an address that is not the root's does: it happens in one child. -/
theorem replaceAt_cons_eq_some {m m' new : Node} {i : Nat} {p : Address}
    (h : m.replaceAt (i :: p) new = some m') :
    ∃ k n s cs c c', m = .branch k n s cs ∧ cs[i]? = some c ∧
      c.2.replaceAt p new = some c' ∧ m' = .branch k n s (cs.set i (c.1, c')) := by
  cases m with
  | token => simp [replaceAt] at h
  | branch k n s cs =>
    rw [replaceAt_cons] at h
    obtain ⟨c, hc, h⟩ := Option.bind_eq_some_iff.mp h
    obtain ⟨c', hc', rfl⟩ := Option.map_eq_some_iff.mp h
    exact ⟨k, n, s, cs, c, c', rfl, hc, hc', rfl⟩

/-- A node can be replaced wherever there is one. -/
theorem replaceAt_eq_some {m old : Node} {p : Address} (h : m.at? p = some old) (new : Node) :
    ∃ m', m.replaceAt p new = some m' := by
  induction p generalizing m with
  | nil => exact ⟨new, replaceAt_nil m new⟩
  | cons i p ih =>
    obtain ⟨c, hc, hp⟩ := at?_cons_eq_some_iff.mp h
    obtain ⟨c', hc'⟩ := ih hp
    cases m with
    | token => simp at hc
    | branch k n s cs =>
      rw [children_branch] at hc
      exact ⟨.branch k n s (cs.set i (c.1, c')), by rw [replaceAt_cons, hc]; simp [hc']⟩

/-- A node is replaced only where there is one. -/
theorem at?_of_replaceAt {m m' new : Node} {p : Address} (h : m.replaceAt p new = some m') :
    ∃ old, m.at? p = some old := by
  induction p generalizing m m' with
  | nil => exact ⟨m, rfl⟩
  | cons i p ih =>
    obtain ⟨k, n, s, cs, c, c', rfl, hc, hc', rfl⟩ := replaceAt_cons_eq_some h
    obtain ⟨old, hold⟩ := ih hc'
    exact ⟨old, at?_cons_eq_some_iff.mpr ⟨c, hc, hold⟩⟩

/-- Below the replaced address stand the nodes of the replacement. -/
theorem at?_replaceAt_append {m m' new : Node} {p : Address} (h : m.replaceAt p new = some m')
    (q : Address) : m'.at? (p ++ q) = new.at? q := by
  induction p generalizing m m' with
  | nil =>
    rw [replaceAt_nil] at h
    obtain rfl := Option.some.inj h
    rfl
  | cons i p ih =>
    obtain ⟨k, n, s, cs, c, c', rfl, hc, hc', rfl⟩ := replaceAt_cons_eq_some h
    have hi : i < cs.length := (List.getElem?_eq_some_iff.mp hc).1
    rw [List.cons_append, at?_cons, children_branch, List.getElem?_set_self hi]
    exact ih hc'

/-- Beside the replaced address, at one neither above nor below it, the nodes stay. -/
theorem at?_replaceAt_of_disjoint {m m' new : Node} {p q : Address}
    (h : m.replaceAt p new = some m') (hpq : ¬ p <+: q) (hqp : ¬ q <+: p) :
    m'.at? q = m.at? q := by
  induction p generalizing m m' q with
  | nil => exact absurd List.nil_prefix hpq
  | cons i p ih =>
    obtain ⟨k, n, s, cs, c, c', rfl, hc, hc', rfl⟩ := replaceAt_cons_eq_some h
    cases q with
    | nil => exact absurd List.nil_prefix hqp
    | cons j q =>
      rw [at?_cons, at?_cons, children_branch, children_branch]
      by_cases hij : i = j
      · subst hij
        have hi : i < cs.length := (List.getElem?_eq_some_iff.mp hc).1
        rw [List.getElem?_set_self hi, hc]
        exact ih hc' (fun h => hpq (List.cons_prefix_cons.mpr ⟨rfl, h⟩))
          (fun h => hqp (List.cons_prefix_cons.mpr ⟨rfl, h⟩))
      · rw [List.getElem?_set_ne hij]

/-- Above the replaced address, the replacement happens inside the node. -/
theorem at?_replaceAt_of_append {m m' a new : Node} {p q : Address}
    (h : m.replaceAt (p ++ q) new = some m') (ha : m.at? p = some a) :
    ∃ a', m'.at? p = some a' ∧ a.replaceAt q new = some a' := by
  induction p generalizing m m' with
  | nil =>
    obtain rfl := Option.some.inj ha
    exact ⟨m', rfl, h⟩
  | cons i p ih =>
    obtain ⟨k, n, s, cs, c, c', rfl, hc, hc', rfl⟩ := replaceAt_cons_eq_some h
    obtain ⟨d, hd, hda⟩ := at?_cons_eq_some_iff.mp ha
    rw [children_branch, hc] at hd
    obtain rfl := Option.some.inj hd
    obtain ⟨a', ha', hrep⟩ := ih hc' hda
    have hi : i < cs.length := (List.getElem?_eq_some_iff.mp hc).1
    refine ⟨a', at?_cons_eq_some_iff.mpr ⟨(c.1, c'), ?_, ha'⟩, hrep⟩
    rw [children_branch, List.getElem?_set_self hi]

/-! ### Addresses beside each other -/

/-- Two addresses of which neither leads on to the other part at some node, one to the left. -/
theorem exists_fork {p q : Address} (hpq : ¬ p <+: q) (hqp : ¬ q <+: p) :
    ∃ r i j p' q', p = r ++ i :: p' ∧ q = r ++ j :: q' ∧ i ≠ j := by
  induction p generalizing q with
  | nil => exact absurd List.nil_prefix hpq
  | cons i p ih =>
    cases q with
    | nil => exact absurd List.nil_prefix hqp
    | cons j q =>
      by_cases hij : i = j
      · subst hij
        obtain ⟨r, i', j', p', q', rfl, rfl, hne⟩ :=
          ih (fun h => hpq (List.cons_prefix_cons.mpr ⟨rfl, h⟩))
            (fun h => hqp (List.cons_prefix_cons.mpr ⟨rfl, h⟩))
        exact ⟨i :: r, i', j', p', q', rfl, rfl, hne⟩
      · exact ⟨[], i, j, p, q, rfl, rfl, hij⟩

/-! ### Traversal -/

theorem preorders_eq_flatMap : ∀ cs : List Child, preorders cs = cs.flatMap fun c => c.2.preorder
  | [] => rfl
  | (f, n) :: cs => by rw [preorders, preorders_eq_flatMap cs, List.flatMap_cons]

theorem preorder_eq_cons (n : Node) :
    n.preorder = n :: n.children.flatMap fun c => c.2.preorder := by
  cases n with
  | token => rw [preorder]; rfl
  | branch k m s cs => rw [preorder, preorders_eq_flatMap]; rfl

/-- A function that changes nodes and keeps how they are nested changes the nodes of the preorder
one by one. -/
theorem preorder_of_children {g : Node → Node}
    (hg : ∀ n : Node, (g n).children = n.children.map fun c => (c.1, g c.2)) (n : Node) :
    (g n).preorder = n.preorder.map g := by
  induction n with
  | token k nm s leading text => rw [preorder_eq_cons, hg]; rfl
  | branch k nm s cs ih =>
    rw [preorder_eq_cons, preorder_eq_cons (.branch k nm s cs), hg, children_branch, List.map_cons,
      List.map_flatMap, List.flatMap_map, List.flatMap_def, List.map_congr_left ih,
      List.flatMap_def]

/-- The stack of pending nodes lists each with all nodes below it, in preorder. -/
theorem walk_eq_flatMap_preorder (stack : List Node) :
    walk stack = stack.flatMap preorder := by
  fun_induction walk stack with
  | case1 => rfl
  | case2 n rest ih =>
    rw [ih, List.flatMap_append, List.flatMap_map, List.flatMap_cons, preorder_eq_cons n]
    rfl

/-- The nodes of a traversal are those at some address. -/
theorem mem_preorder_iff {n m : Node} : m ∈ n.preorder ↔ ∃ p, n.at? p = some m := by
  induction n generalizing m with
  | token k nm s l x =>
    rw [preorder_eq_cons, children_token, List.flatMap_nil, List.mem_singleton]
    constructor
    · rintro rfl
      exact ⟨[], rfl⟩
    · rintro ⟨p, hp⟩
      cases p with
      | nil => exact (Option.some.inj hp).symm
      | cons i p => simp [at?_cons] at hp
  | branch k nm s cs ih =>
    rw [preorder_eq_cons, children_branch, List.mem_cons, List.mem_flatMap]
    constructor
    · rintro (rfl | ⟨c, hc, hm⟩)
      · exact ⟨[], rfl⟩
      · obtain ⟨p, hp⟩ := (ih c hc).mp hm
        obtain ⟨i, hi⟩ := List.getElem?_of_mem hc
        exact ⟨i :: p, at?_cons_eq_some_iff.mpr ⟨c, hi, hp⟩⟩
    · rintro ⟨p, hp⟩
      cases p with
      | nil => exact Or.inl (Option.some.inj hp).symm
      | cons i p =>
        obtain ⟨c, hc, hp⟩ := at?_cons_eq_some_iff.mp hp
        have hmem : c ∈ cs := List.mem_of_getElem? hc
        exact Or.inr ⟨c, hmem, (ih c hmem).mpr ⟨p, hp⟩⟩

end Node

namespace Tree

theorem nodes_eq_preorder (t : Tree) : t.nodes = t.root.preorder := by
  rw [nodes, Node.walk_eq_flatMap_preorder, List.flatMap_cons, List.flatMap_nil, List.append_nil]

/-- A node belongs to a tree if it stands at some address. -/
theorem mem_nodes_iff {t : Tree} {n : Node} : n ∈ t.nodes ↔ ∃ p, t.root.at? p = some n := by
  rw [nodes_eq_preorder, Node.mem_preorder_iff]

theorem mem_nodes_of_at? {t : Tree} {n : Node} {p : Address} (h : t.root.at? p = some n) :
    n ∈ t.nodes :=
  mem_nodes_iff.mpr ⟨p, h⟩

end Tree

end ViewLint
