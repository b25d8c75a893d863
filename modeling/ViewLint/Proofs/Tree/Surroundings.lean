import ViewLint.Proofs.Tree.Bare

/-!
# The text around a node

The text of a tree is the text before a node, the text of the node with its trivia, and the text
after it. Replacing the node changes the middle part and keeps the two others; the text before a
node further right grows or shrinks with the replacement.

## Main definitions

* `Node.lead`: the trivia before the first token of a node, so that the full text of a node is
  its trivia followed by its text.
* `Node.before`, `Node.after`: the texts on both sides of an address.

## Main results

* `Node.fullText_eq_lead_append_text`: a node's trivia and its text.
* `Node.fullText_eq_before_append`: the text around an address.
* `Node.before_replaceAt`, `Node.after_replaceAt`: a replacement keeps the text around it.
* `Node.size_before_replaceAt_of_right`: how the text before a node further right changes.
-/

namespace ViewLint

namespace Node

/-! ### Texts of children -/

theorem fullTexts_append : ∀ cs ds : List Child,
    fullTexts (cs ++ ds) = fullTexts cs ++ fullTexts ds
  | [], ds => by rw [List.nil_append, fullTexts, String.empty_append]
  | (f, n) :: cs, ds => by
    rw [List.cons_append, fullTexts, fullTexts, fullTexts_append cs ds, String.append_assoc]

theorem fullTexts_singleton (c : Child) : fullTexts [c] = c.2.fullText := by
  rw [fullTexts, fullTexts, String.append_empty]

/-- The texts of children are those before one of them, its own, and those after it. -/
theorem fullTexts_eq_take_append {cs : List Child} {i : Nat} {c : Child} (h : cs[i]? = some c) :
    fullTexts cs = fullTexts (cs.take i) ++ c.2.fullText ++ fullTexts (cs.drop (i + 1)) := by
  obtain ⟨hi, rfl⟩ := List.getElem?_eq_some_iff.mp h
  calc fullTexts cs
      = fullTexts (cs.take i ++ (cs[i] :: cs.drop (i + 1))) := by
        rw [← List.drop_eq_getElem_cons hi, List.take_append_drop]
    _ = fullTexts (cs.take i) ++ cs[i].2.fullText ++ fullTexts (cs.drop (i + 1)) := by
        rw [fullTexts_append, ← List.singleton_append, fullTexts_append, fullTexts_singleton,
          String.append_assoc]

theorem fullTexts_take_succ {cs : List Child} {i : Nat} {c : Child} (h : cs[i]? = some c) :
    fullTexts (cs.take (i + 1)) = fullTexts (cs.take i) ++ c.2.fullText := by
  rw [List.take_add_one, h, fullTexts_append]
  exact congrArg _ (fullTexts_singleton c)

/-- More children have a longer text. -/
theorem size_fullTexts_take_le (cs : List Child) {i j : Nat} (h : i ≤ j) :
    (fullTexts (cs.take i)).utf8ByteSize ≤ (fullTexts (cs.take j)).utf8ByteSize := by
  obtain ⟨ds, hds⟩ : cs.take i <+: cs.take j := List.take_prefix_take_left h
  rw [← hds, fullTexts_append, String.utf8ByteSize_append]
  exact Nat.le_add_right _ _

/-! ### The trivia before a node -/

mutual

/-- The trivia before the first token of a node; none where the first children lead to no token. -/
def lead : Node → String
  | .token _ _ _ leading _ => leading
  | .branch _ _ _ cs => leadOf cs

/-- The trivia before the first token of the first child. -/
def leadOf : List (Option String × Node) → String
  | [] => ""
  | (_, n) :: _ => n.lead

end

/-- A node starts with the trivia of its first child. -/
theorem lead_eq_of_head? {n : Node} {c : Child} (h : n.children.head? = some c) :
    n.lead = c.2.lead := by
  cases n with
  | token => simp at h
  | branch k nm s cs =>
    obtain ⟨ds, rfl⟩ := List.head?_eq_some_iff.mp h
    rw [lead, leadOf]

mutual

/-- The full text of a node is its trivia followed by its text. -/
theorem fullText_eq_lead_append_text : ∀ n : Node, n.fullText = n.lead ++ n.text
  | .token k n s leading text => by rw [fullText, lead, Node.text]
  | .branch k n s cs => by rw [fullText, lead, Node.text, fullTexts_eq_leadOf_append cs]

theorem fullTexts_eq_leadOf_append :
    ∀ cs : List (Option String × Node), fullTexts cs = leadOf cs ++ textOfFirst cs
  | [] => by rw [fullTexts, leadOf, textOfFirst, String.append_empty]
  | (f, n) :: cs => by
    rw [fullTexts, leadOf, textOfFirst, fullText_eq_lead_append_text n, String.append_assoc]

end

/-! ### The text before and after an address -/

/-- The text before the node at an address and its trivia. -/
def before (n : Node) : Address → String
  | [] => ""
  | i :: p => fullTexts (n.children.take i) ++ n.children[i]?.elim "" fun c => c.2.before p

/-- The text after the node at an address. -/
def after (n : Node) : Address → String
  | [] => ""
  | i :: p => (n.children[i]?.elim "" fun c => c.2.after p) ++ fullTexts (n.children.drop (i + 1))

@[simp] theorem before_nil (n : Node) : n.before [] = "" := rfl

@[simp] theorem after_nil (n : Node) : n.after [] = "" := rfl

theorem before_cons {n : Node} {i : Nat} {c : Child} (h : n.children[i]? = some c)
    (p : Address) : n.before (i :: p) = fullTexts (n.children.take i) ++ c.2.before p := by
  rw [before, h, Option.elim_some]

/-- Nothing but the trivia of its first child stands before the first child of a node. -/
theorem before_zero_cons {n : Node} {c : Child} (h : n.children.head? = some c) (p : Address) :
    n.before (0 :: p) = c.2.before p := by
  rw [before_cons (by rw [← List.head?_eq_getElem?, h]), List.take_zero, fullTexts,
    String.empty_append]

theorem after_cons {n : Node} {i : Nat} {c : Child} (h : n.children[i]? = some c)
    (p : Address) : n.after (i :: p) = c.2.after p ++ fullTexts (n.children.drop (i + 1)) := by
  rw [after, h, Option.elim_some]

theorem before_append {n m : Node} {p : Address} (h : n.at? p = some m) (q : Address) :
    n.before (p ++ q) = n.before p ++ m.before q := by
  induction p generalizing n with
  | nil =>
    obtain rfl := Option.some.inj h
    rw [List.nil_append, before_nil, String.empty_append]
  | cons i p ih =>
    obtain ⟨c, hc, hp⟩ := at?_cons_eq_some_iff.mp h
    rw [List.cons_append, before_cons hc, before_cons hc, ih hp, String.append_assoc]

/-- The text of a tree around the node at an address. -/
theorem fullText_eq_before_append {n m : Node} {p : Address} (h : n.at? p = some m) :
    n.fullText = n.before p ++ m.fullText ++ n.after p := by
  induction p generalizing n with
  | nil =>
    obtain rfl := Option.some.inj h
    rw [before_nil, after_nil, String.empty_append, String.append_empty]
  | cons i p ih =>
    obtain ⟨c, hc, hp⟩ := at?_cons_eq_some_iff.mp h
    cases n with
    | token => simp at hc
    | branch k nm s cs =>
      rw [before_cons hc, after_cons hc, fullText, children_branch,
        fullTexts_eq_take_append (by simpa using hc), ih hp]
      simp only [String.append_assoc]

/-- The text before a node, with the node itself, is part of the text of the nodes above it. -/
theorem size_before_add_le {n m : Node} {p : Address} (h : n.at? p = some m) :
    (n.before p).utf8ByteSize + m.fullText.utf8ByteSize ≤ n.fullText.utf8ByteSize := by
  rw [fullText_eq_before_append h, String.utf8ByteSize_append, String.utf8ByteSize_append]
  exact Nat.le_add_right _ _

/-- The text before a node, with the node itself, is part of the text before a node further
right. -/
theorem size_before_add_le_of_lt {n m : Node} {i j : Nat} {p : Address}
    (h : n.at? (i :: p) = some m) (q : Address) (hij : i < j) :
    (n.before (i :: p)).utf8ByteSize + m.fullText.utf8ByteSize ≤
      (n.before (j :: q)).utf8ByteSize := by
  obtain ⟨c, hc, hp⟩ := at?_cons_eq_some_iff.mp h
  have hchild := size_before_add_le hp
  have htake := size_fullTexts_take_le n.children (Nat.succ_le_of_lt hij)
  rw [fullTexts_take_succ hc] at htake
  rw [before_cons hc, before]
  simp only [String.utf8ByteSize_append] at htake ⊢
  omega

/-- A node starts no earlier than the nodes above it. -/
theorem size_lead_le {n m : Node} {p : Address} (h : n.at? p = some m) :
    n.lead.utf8ByteSize ≤ (n.before p).utf8ByteSize + m.lead.utf8ByteSize := by
  induction p generalizing n with
  | nil =>
    obtain rfl := Option.some.inj h
    exact Nat.le_add_left _ _
  | cons i p ih =>
    obtain ⟨c, hc, hp⟩ := at?_cons_eq_some_iff.mp h
    have hrest := ih hp
    obtain ⟨first, rest, hcs⟩ :=
      List.exists_cons_of_ne_nil (List.ne_nil_of_mem (List.mem_of_getElem? hc))
    have hlead : n.lead = first.2.lead := lead_eq_of_head? (by rw [hcs, List.head?_cons])
    rw [before_cons hc, String.utf8ByteSize_append, hlead]
    cases i with
    | zero =>
      rw [hcs] at hc
      obtain rfl := Option.some.inj hc
      omega
    | succ i =>
      -- The trivia of the first child is part of the text before the later children.
      have hfirst : (fullTexts (n.children.take 1)).utf8ByteSize ≤
          (fullTexts (n.children.take (i + 1))).utf8ByteSize :=
        size_fullTexts_take_le n.children (Nat.le_add_left 1 i)
      have htext : fullTexts (n.children.take 1) = first.2.lead ++ first.2.text := by
        rw [hcs, ← fullText_eq_lead_append_text]
        exact fullTexts_singleton first
      rw [htext, String.utf8ByteSize_append] at hfirst
      omega

/-! ### Replacing a node -/

/-- A replacement keeps the text before the replaced node and before the nodes above it. -/
theorem before_replaceAt_of_append {m m' new : Node} {p q : Address}
    (h : m.replaceAt (p ++ q) new = some m') : m'.before p = m.before p := by
  induction p generalizing m m' with
  | nil => rfl
  | cons i p ih =>
    obtain ⟨k, n, s, cs, c, c', rfl, hc, hc', rfl⟩ := replaceAt_cons_eq_some h
    have hi : i < cs.length := (List.getElem?_eq_some_iff.mp hc).1
    have hset : (cs.set i (c.1, c'))[i]? = some (c.1, c') := List.getElem?_set_self hi
    rw [before_cons hset, before_cons hc, ih hc', children_branch, children_branch,
      List.take_set_of_le (Nat.le_refl i)]

theorem before_replaceAt {m m' new : Node} {p : Address} (h : m.replaceAt p new = some m') :
    m'.before p = m.before p :=
  before_replaceAt_of_append (p := p) (q := []) (by rwa [List.append_nil])

theorem after_replaceAt {m m' new : Node} {p : Address} (h : m.replaceAt p new = some m') :
    m'.after p = m.after p := by
  induction p generalizing m m' with
  | nil => rfl
  | cons i p ih =>
    obtain ⟨k, n, s, cs, c, c', rfl, hc, hc', rfl⟩ := replaceAt_cons_eq_some h
    have hi : i < cs.length := (List.getElem?_eq_some_iff.mp hc).1
    have hset : (cs.set i (c.1, c'))[i]? = some (c.1, c') := List.getElem?_set_self hi
    rw [after_cons hset, after_cons hc, ih hc', children_branch, children_branch,
      List.drop_set_of_lt (Nat.lt_succ_self i)]

/-- A replacement changes the text of a tree at one place. -/
theorem fullText_replaceAt {m m' new : Node} {p : Address} (h : m.replaceAt p new = some m') :
    m'.fullText = m.before p ++ new.fullText ++ m.after p := by
  have hat : m'.at? p = some new := by simpa using at?_replaceAt_append h []
  rw [fullText_eq_before_append hat, before_replaceAt h, after_replaceAt h]

/-- The change of the length of a text by a replacement. -/
theorem size_fullText_replaceAt {m m' old new : Node} {p : Address}
    (h : m.replaceAt p new = some m') (hold : m.at? p = some old) :
    m'.fullText.utf8ByteSize + old.fullText.utf8ByteSize =
      m.fullText.utf8ByteSize + new.fullText.utf8ByteSize := by
  rw [fullText_replaceAt h, fullText_eq_before_append hold]
  simp only [String.utf8ByteSize_append]
  omega

/-- To the left of a replaced node the text before a node stays. -/
theorem before_replaceAt_of_left {m m' a new : Node} {r p q : Address} {i j : Nat}
    (h : m.replaceAt (r ++ i :: p) new = some m') (ha : m.at? r = some a) (hji : j < i) :
    m'.before (r ++ j :: q) = m.before (r ++ j :: q) := by
  obtain ⟨a', ha', hrep⟩ := at?_replaceAt_of_append h ha
  obtain ⟨k, n, s, cs, c, c', rfl, -, -, rfl⟩ := replaceAt_cons_eq_some hrep
  rw [before_append ha', before_append ha, before_replaceAt_of_append h, before, before,
    children_branch, children_branch, List.getElem?_set_ne (by omega),
    List.take_set_of_le (by omega)]

/-- To the right of a replaced node the text before a node grows with the replacement. -/
theorem size_before_replaceAt_of_right {m m' a old new : Node} {r p q : Address} {i j : Nat}
    (h : m.replaceAt (r ++ i :: p) new = some m') (ha : m.at? r = some a)
    (hold : m.at? (r ++ i :: p) = some old) (hij : i < j) :
    (m'.before (r ++ j :: q)).utf8ByteSize + old.fullText.utf8ByteSize =
      (m.before (r ++ j :: q)).utf8ByteSize + new.fullText.utf8ByteSize := by
  obtain ⟨a', ha', hrep⟩ := at?_replaceAt_of_append h ha
  rw [at?_append_of_eq_some ha] at hold
  obtain ⟨k, n, s, cs, c, c', rfl, hc, hc', rfl⟩ := replaceAt_cons_eq_some hrep
  obtain ⟨d, hd, hold⟩ := at?_cons_eq_some_iff.mp hold
  obtain rfl : c = d := Option.some.inj (hc.symm.trans hd)
  have hi : i < cs.length := (List.getElem?_eq_some_iff.mp hc).1
  have hsize := size_fullText_replaceAt hc' hold
  have hnew : ((cs.set i (c.1, c')).take j)[i]? = some (c.1, c') := by
    rw [List.getElem?_take_of_lt hij, List.getElem?_set_self hi]
  have hwas : (cs.take j)[i]? = some c := by rw [List.getElem?_take_of_lt hij, hc]
  have htake : ((cs.set i (c.1, c')).take j).take i = (cs.take j).take i := by
    rw [List.take_take, List.take_take, List.take_set_of_le (Nat.min_le_left i j)]
  have hdrop : ((cs.set i (c.1, c')).take j).drop (i + 1) = (cs.take j).drop (i + 1) := by
    rw [List.take_set, List.drop_set_of_lt (Nat.lt_succ_self i)]
  rw [before_append ha', before_append ha, before_replaceAt_of_append h, before, before,
    children_branch, children_branch, List.getElem?_set_ne (by omega),
    fullTexts_eq_take_append hnew, fullTexts_eq_take_append hwas, htake, hdrop]
  simp only [String.utf8ByteSize_append]
  omega

/-- A replacement with the same trivia before it keeps the trivia before the nodes above it. -/
theorem lead_replaceAt {m m' old new : Node} {p : Address} (h : m.replaceAt p new = some m')
    (hold : m.at? p = some old) (hlead : new.lead = old.lead) : m'.lead = m.lead := by
  induction p generalizing m m' with
  | nil =>
    rw [replaceAt_nil] at h
    obtain rfl := Option.some.inj h
    obtain rfl := Option.some.inj hold
    exact hlead
  | cons i p ih =>
    obtain ⟨k, n, s, cs, c, c', rfl, hc, hc', rfl⟩ := replaceAt_cons_eq_some h
    obtain ⟨d, hd, hold⟩ := at?_cons_eq_some_iff.mp hold
    obtain rfl : c = d := Option.some.inj (hc.symm.trans hd)
    obtain ⟨e, es, rfl⟩ := List.exists_cons_of_ne_nil (List.ne_nil_of_mem (List.mem_of_getElem? hc))
    cases i with
    | zero =>
      obtain rfl := Option.some.inj hc
      calc _ = c'.lead := lead_eq_of_head? (c := (e.1, c')) rfl
        _ = e.2.lead := ih hc' hold
        _ = _ := (lead_eq_of_head? rfl).symm
    | succ i =>
      calc _ = e.2.lead := lead_eq_of_head? rfl
        _ = _ := (lead_eq_of_head? rfl).symm

end Node

end ViewLint
