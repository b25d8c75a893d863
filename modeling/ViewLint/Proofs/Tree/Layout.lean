import ViewLint.Proofs.Tree.Surroundings
import ViewLint.Tree.Layout

/-!
# Spans of laid out trees

Laying out a node at an offset changes nothing but spans, depends on nothing but what is no span,
and gives every node below it the span that the texts around it determine. A tree that is laid out
therefore knows the span of each of its nodes from the text before it.

## Main definitions

* `Tree.LaidOut`: laying a tree out again gives the same tree.

## Main results

* `Node.bare_layout`, `Node.layout_bare`, `Node.layout_layout`: a layout reads and writes no
  part of the node but its spans, so a second one changes nothing.
* `Node.span_layout`, `Node.at?_layout`: the span of a node and of the nodes below it.
* `Tree.LaidOut.span_eq`: the span of a node of a laid out tree.
* `Tree.LaidOut.span_le_of_append`, `Tree.LaidOut.stop_le_start`: spans above and beside others.
* `Tree.laidOut_of_replace`: a replacement leaves a laid out tree.
-/

namespace ViewLint

namespace Node

/-! ### A layout changes spans only -/

mutual

/-- A layout changes nothing but spans. -/
@[simp] theorem bare_layout : ∀ (n : Node) (offset : Nat), (n.layout offset).1.bare = n.bare
  | .token k n s leading text, offset => by rw [layout, bare, bare]
  | .branch k n s cs, offset => by rw [layout, bare, bare, bares_layoutAll cs offset]

theorem bares_layoutAll : ∀ (cs : List (Option String × Node)) (offset : Nat),
    bares (layoutAll cs offset).1 = bares cs
  | [], offset => by rw [layoutAll]
  | (f, n) :: cs, offset => by
    rw [layoutAll, bares, bares, bare_layout n offset, bares_layoutAll cs]

end

mutual

/-- A layout depends on nothing but what is no span. -/
theorem layout_bare : ∀ (n : Node) (offset : Nat), n.bare.layout offset = n.layout offset
  | .token k n s leading text, offset => by rw [bare, layout, layout]
  | .branch k n s cs, offset => by rw [bare, layout, layout, layoutAll_bares cs offset]

theorem layoutAll_bares : ∀ (cs : List (Option String × Node)) (offset : Nat),
    layoutAll (bares cs) offset = layoutAll cs offset
  | [], offset => by rw [bares]
  | (f, n) :: cs, offset => by
    rw [bares, layoutAll, layoutAll, layout_bare n offset]
    simp only [layoutAll_bares cs]

end

theorem layout_eq_of_bare_eq {n m : Node} (h : n.bare = m.bare) (offset : Nat) :
    n.layout offset = m.layout offset := by
  rw [← layout_bare n, h, layout_bare]

/-- Laying out twice at the same offset is laying out once. -/
theorem layout_layout (n : Node) (offset : Nat) :
    (n.layout offset).1.layout offset = n.layout offset :=
  layout_eq_of_bare_eq (bare_layout n offset) offset

/-! ### The span of a node -/

mutual

/-- A layout ends where the full text of the node ends. -/
theorem layout_snd : ∀ (n : Node) (offset : Nat),
    (n.layout offset).2 = offset + n.fullText.utf8ByteSize
  | .token k n s leading text, offset => by
    rw [layout, fullText, String.utf8ByteSize_append, Nat.add_assoc]
  | .branch k n s cs, offset => by rw [layout, fullText, layoutAll_snd cs offset]

theorem layoutAll_snd : ∀ (cs : List (Option String × Node)) (offset : Nat),
    (layoutAll cs offset).2 = offset + (fullTexts cs).utf8ByteSize
  | [], offset => by rw [layoutAll, fullTexts]; rfl
  | (f, n) :: cs, offset => by
    rw [layoutAll, layoutAll_snd cs, layout_snd n offset, fullTexts, String.utf8ByteSize_append,
      Nat.add_assoc]

end

/-- A child is laid out after the texts of the children before it. -/
theorem getElem?_layoutAll : ∀ (cs : List Child) (offset i : Nat),
    (layoutAll cs offset).1[i]? = cs[i]?.map fun c =>
      (c.1, (c.2.layout (offset + (fullTexts (cs.take i)).utf8ByteSize)).1)
  | [], offset, i => by simp [layoutAll]
  | (f, n) :: cs, offset, 0 => by simp [layoutAll, fullTexts]
  | (f, n) :: cs, offset, i + 1 => by
    rw [layoutAll, List.getElem?_cons_succ, List.getElem?_cons_succ, getElem?_layoutAll cs,
      layout_snd, List.take_succ_cons, fullTexts, String.utf8ByteSize_append, Nat.add_assoc]

theorem length_layoutAll : ∀ (cs : List Child) (offset : Nat),
    (layoutAll cs offset).1.length = cs.length
  | [], offset => by rw [layoutAll]
  | (f, n) :: cs, offset => by
    rw [layoutAll, List.length_cons, List.length_cons, length_layoutAll cs]

theorem children_layout (n : Node) (offset : Nat) :
    (n.layout offset).1.children = (layoutAll n.children offset).1 := by
  cases n with
  | token => rw [layout]; simp [layoutAll]
  | branch k nm s cs => rw [layout]; rfl

@[simp] theorem fullText_layout (n : Node) (offset : Nat) :
    (n.layout offset).1.fullText = n.fullText := by
  rw [← fullText_bare, bare_layout, fullText_bare]

@[simp] theorem kind_layout (n : Node) (offset : Nat) :
    (n.layout offset).1.kind = n.kind := by
  rw [← kind_bare, bare_layout, kind_bare]

theorem spanOf_eq_some {cs : List Child} {first last : Child} (hfirst : cs.head? = some first)
    (hlast : cs.getLast? = some last) :
    spanOf cs = some ⟨first.2.span.start, last.2.span.stop⟩ := by
  obtain ⟨ds, rfl⟩ := List.head?_eq_some_iff.mp hfirst
  rw [List.getLast?_eq_some_getLast (List.cons_ne_nil _ _)] at hlast
  rw [spanOf, Option.some.inj hlast]

/-- The first of some children, laid out. -/
theorem head?_layoutAll (cs : List Child) (offset : Nat) :
    (layoutAll cs offset).1.head? = cs.head?.map fun c => (c.1, (c.2.layout offset).1) := by
  rw [List.head?_eq_getElem?, getElem?_layoutAll, List.head?_eq_getElem?, List.take_zero, fullTexts]
  rfl

/-- The last of some children, laid out: it stops where all of them do. -/
theorem getLast?_layoutAll (cs : List Child) (offset : Nat) :
    (layoutAll cs offset).1.getLast? = cs.getLast?.map fun c =>
      (c.1, (c.2.layout (offset + (fullTexts cs.dropLast).utf8ByteSize)).1) := by
  rw [List.getLast?_eq_getElem?, getElem?_layoutAll, List.getLast?_eq_getElem?, length_layoutAll,
    List.dropLast_eq_take]

theorem fullTexts_eq_dropLast_append {cs : List Child} {last : Child}
    (h : cs.getLast? = some last) : fullTexts cs = fullTexts cs.dropLast ++ last.2.fullText := by
  obtain ⟨ds, rfl⟩ := List.getLast?_eq_some_iff.mp h
  rw [fullTexts_append, fullTexts_singleton, List.dropLast_concat]

/-- The span of a laid out node starts after its trivia and stops where its text does. -/
theorem span_layout (n : Node) (offset : Nat) :
    (n.layout offset).1.span =
      ⟨offset + n.lead.utf8ByteSize, offset + n.fullText.utf8ByteSize⟩ := by
  induction n generalizing offset with
  | token k nm s leading text =>
    rw [layout, span, lead, fullText, String.utf8ByteSize_append, Nat.add_assoc]
  | branch k nm s cs ih =>
    rw [layout, span]
    cases hcs : cs with
    | nil => simp [layoutAll, spanOf, lead, leadOf, fullText, fullTexts]
    | cons first rest =>
      rw [← hcs]
      obtain ⟨last, hlast⟩ : ∃ last, cs.getLast? = some last :=
        ⟨_, List.getLast?_eq_some_getLast (by rw [hcs]; exact List.cons_ne_nil _ _)⟩
      have hfirst : cs.head? = some first := by rw [hcs, List.head?_cons]
      rw [spanOf_eq_some (by rw [head?_layoutAll, hfirst]; rfl)
        (by rw [getLast?_layoutAll, hlast]; rfl), Option.getD_some,
        ih first (List.mem_of_head? hfirst), ih last (List.mem_of_getLast? hlast),
        lead_eq_of_head? (n := .branch k nm s cs) hfirst, fullText,
        fullTexts_eq_dropLast_append hlast, String.utf8ByteSize_append,
        Nat.add_assoc offset _ last.2.fullText.utf8ByteSize]

/-- The node at an address of a laid out node, laid out after the text before it. -/
theorem at?_layout (n : Node) (offset : Nat) (p : Address) :
    (n.layout offset).1.at? p = (n.at? p).map fun m =>
      (m.layout (offset + (n.before p).utf8ByteSize)).1 := by
  induction p generalizing n offset with
  | nil => rfl
  | cons i p ih =>
    rw [at?_cons, at?_cons, children_layout, getElem?_layoutAll]
    cases hc : n.children[i]? with
    | none => rfl
    | some c =>
      rw [Option.map_some, Option.bind_some, Option.bind_some, ih, before_cons hc,
        String.utf8ByteSize_append, Nat.add_assoc]

end Node

namespace Tree

/-! ### Laid out trees -/

/-- Replacing the root of the tree by itself gives an equal tree: all spans are those that the
tokens give. -/
def LaidOut (t : Tree) : Prop :=
  t.replace [] t.root = some t

theorem replace_root (t : Tree) : t.replace [] t.root = some t.layout := by
  rw [replace, Node.replaceAt_nil]
  rfl

theorem laidOut_iff {t : Tree} : t.LaidOut ↔ (t.root.layout 0).1 = t.root := by
  rw [LaidOut, replace_root, Option.some.injEq, layout]
  constructor
  · intro h
    exact congrArg root h
  · intro h
    rw [h]

theorem laidOut_layout (t : Tree) : t.layout.LaidOut := by
  rw [laidOut_iff, layout, Node.layout_layout]

theorem laidOut_of_replace {t t' : Tree} {p : Address} {new : Node}
    (h : t.replace p new = some t') : t'.LaidOut := by
  obtain ⟨root, -, rfl⟩ := Option.map_eq_some_iff.mp h
  exact laidOut_layout _

namespace LaidOut

variable {t : Tree} {n m : Node} {p q : Address}

/-- Every node of a laid out tree is laid out after the text before it. -/
theorem layout_eq (ht : t.LaidOut) (hn : t.root.at? p = some n) :
    (n.layout (t.root.before p).utf8ByteSize).1 = n := by
  have h := Node.at?_layout t.root 0 p
  rw [laidOut_iff.mp ht, hn, Option.map_some, Nat.zero_add] at h
  exact (Option.some.inj h).symm

/-- The span of a node is given by the text before it, its trivia and its text. -/
theorem span_eq (ht : t.LaidOut) (hn : t.root.at? p = some n) :
    n.span = ⟨(t.root.before p).utf8ByteSize + n.lead.utf8ByteSize,
      (t.root.before p).utf8ByteSize + n.fullText.utf8ByteSize⟩ := by
  rw [← Node.span_layout, ht.layout_eq hn]

theorem start_le_stop (ht : t.LaidOut) (hn : t.root.at? p = some n) :
    n.span.start ≤ n.span.stop := by
  rw [ht.span_eq hn, Node.fullText_eq_lead_append_text, String.utf8ByteSize_append]
  exact Nat.add_le_add_left (Nat.le_add_right _ _) _

/-- The text before a node further down is that before the node above it and inside of it. -/
theorem span_append (ht : t.LaidOut) (hn : t.root.at? p = some n)
    (hm : t.root.at? (p ++ q) = some m) :
    m.span = ⟨(t.root.before p).utf8ByteSize + (n.before q).utf8ByteSize + m.lead.utf8ByteSize,
      (t.root.before p).utf8ByteSize + (n.before q).utf8ByteSize + m.fullText.utf8ByteSize⟩ := by
  rw [ht.span_eq hm, Node.before_append hn, String.utf8ByteSize_append]

/-- The span of a node lies in the spans of the nodes above it. -/
theorem span_le_of_append (ht : t.LaidOut) (hn : t.root.at? p = some n)
    (hm : t.root.at? (p ++ q) = some m) :
    n.span.start ≤ m.span.start ∧ m.span.stop ≤ n.span.stop := by
  have hnm : n.at? q = some m := by rwa [Node.at?_append_of_eq_some hn] at hm
  have hlead := Node.size_lead_le hnm
  have htext := Node.size_before_add_le hnm
  rw [ht.span_append hn hm, ht.span_eq hn]
  dsimp only
  omega

/-- Of two nodes beside each other, the left one stops before the right one starts. -/
theorem stop_le_start {r : Address} {i j : Nat} (ht : t.LaidOut)
    (hn : t.root.at? (r ++ i :: p) = some n) (hm : t.root.at? (r ++ j :: q) = some m)
    (hij : i < j) : n.span.stop ≤ m.span.start := by
  obtain ⟨a, ha, han⟩ := Node.exists_at?_of_append hn
  have hbefore := Node.size_before_add_le_of_lt han q hij
  rw [ht.span_append ha hn, ht.span_append ha hm]
  dsimp only
  omega

end LaidOut

end Tree

end ViewLint
