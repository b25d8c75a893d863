import Mathlib.Logic.Relation
import ViewLint.Proofs.Fix.Call
import ViewLint.Proofs.Text.Slice

/-!
# Spans stay true under rewriting

Every node of a laid out tree spans exactly the bytes of its text, and its children follow each
other inside of it. Each replacement and each fix leaves a laid out tree, whatever spans the tree
and the replacement had before, so this holds after any number of them.

## Main definitions

* `Tree.Consistent`: the spans of all nodes agree with the text of the tree.
* `Tree.Rewrites`: one replacement or one fix.

## Main results

* `Tree.LaidOut.consistent`: the spans of a laid out tree agree with its text.
* `Tree.consistent_of_rewriting`: replacing and fixing leaves consistent trees.
-/

namespace ViewLint

namespace Tree

/-- The spans of all nodes agree with the text of the tree and with each other. -/
structure Consistent (t : Tree) : Prop where
  /-- The span of a node lies in the text of the tree. -/
  bounded : ∀ n ∈ t.nodes, n.span.start ≤ n.span.stop ∧ n.span.stop ≤ t.text.utf8ByteSize
  /-- The bytes in the span of a node are its text. -/
  bytes : ∀ n ∈ t.nodes, t.text.toUTF8.extract n.span.start n.span.stop = n.text.toUTF8
  /-- The first child starts where the node starts. -/
  first : ∀ n ∈ t.nodes, ∀ c, n.children.head? = some c → c.2.span.start = n.span.start
  /-- The last child stops where the node stops. -/
  last : ∀ n ∈ t.nodes, ∀ c, n.children.getLast? = some c → c.2.span.stop = n.span.stop
  /-- A child stops before the children after it start. -/
  ordered : ∀ n ∈ t.nodes, n.children.Pairwise fun a b => a.2.span.stop ≤ b.2.span.start
  /-- The root stops where the trailing trivia starts. -/
  root_stop : t.root.span.stop = t.text.utf8ByteSize - t.trailing.utf8ByteSize
  /-- Laying the tree out again changes nothing. -/
  laidOut : t.LaidOut

namespace LaidOut

variable {t : Tree} {n : Node} {p : Address}

/-- The text of a tree around a node without its trivia. -/
theorem text_eq (hn : t.root.at? p = some n) :
    t.text = (t.root.before p ++ n.lead) ++ n.text ++ (t.root.after p ++ t.trailing) := by
  rw [text, Node.fullText_eq_before_append hn, Node.fullText_eq_lead_append_text]
  simp only [String.append_assoc]

/-- The span of a node gives the offsets of its text in the text of the tree. -/
theorem span_eq_offsets (ht : t.LaidOut) (hn : t.root.at? p = some n) :
    n.span = ⟨(t.root.before p ++ n.lead).utf8ByteSize,
      (t.root.before p ++ n.lead).utf8ByteSize + n.text.utf8ByteSize⟩ := by
  rw [ht.span_eq hn, Node.fullText_eq_lead_append_text]
  simp only [String.utf8ByteSize_append, Nat.add_assoc]

/-- The first child of a node starts where the node does. -/
theorem start_of_head? (ht : t.LaidOut) (hn : t.root.at? p = some n) {c : Child}
    (hc : n.children.head? = some c) : c.2.span.start = n.span.start := by
  have hat := Node.at?_append_child hn (by rwa [← List.head?_eq_getElem?])
  rw [ht.span_append hn hat, ht.span_eq hn, Node.before_zero_cons hc, Node.before_nil,
    Node.lead_eq_of_head? hc, String.utf8ByteSize_empty, Nat.add_zero]

/-- The last child of a node stops where the node does. -/
theorem stop_of_getLast? (ht : t.LaidOut) (hn : t.root.at? p = some n) {c : Child}
    (hc : n.children.getLast? = some c) : c.2.span.stop = n.span.stop := by
  obtain ⟨k, nm, s, cs, rfl⟩ : ∃ k nm s cs, n = .branch k nm s cs := by
    cases n with
    | token => simp at hc
    | branch k nm s cs => exact ⟨k, nm, s, cs, rfl⟩
  rw [Node.children_branch] at hc
  have hidx : cs[cs.length - 1]? = some c := by rw [← List.getLast?_eq_getElem?, hc]
  have hat := Node.at?_append_child hn (by rwa [Node.children_branch])
  have hbefore : (Node.branch k nm s cs).before [cs.length - 1] = Node.fullTexts cs.dropLast := by
    rw [Node.before_cons (by simpa using hidx), Node.before_nil, String.append_empty,
      Node.children_branch, List.dropLast_eq_take]
  rw [ht.span_append hn hat, ht.span_eq hn, hbefore, Node.fullText,
    Node.fullTexts_eq_dropLast_append hc, String.utf8ByteSize_append]
  exact Nat.add_assoc _ _ _

/-- The children of a node follow each other. -/
theorem pairwise_children (ht : t.LaidOut) (hn : t.root.at? p = some n) :
    n.children.Pairwise fun a b => a.2.span.stop ≤ b.2.span.start := by
  rw [List.pairwise_iff_getElem]
  intro i j hi hj hij
  exact ht.stop_le_start (Node.at?_append_child hn (List.getElem?_eq_getElem hi))
    (Node.at?_append_child hn (List.getElem?_eq_getElem hj)) hij

/-- The spans of a laid out tree agree with its text. -/
theorem consistent (ht : t.LaidOut) : t.Consistent where
  bounded n hn := by
    obtain ⟨p, hp⟩ := mem_nodes_iff.mp hn
    refine ⟨ht.start_le_stop hp, ?_⟩
    rw [ht.span_eq_offsets hp, text_eq hp]
    simp only [String.utf8ByteSize_append]
    exact Nat.le_add_right _ _
  bytes n hn := by
    obtain ⟨p, hp⟩ := mem_nodes_iff.mp hn
    rw [ht.span_eq_offsets hp, text_eq hp, extract_toUTF8_append]
  first n hn c hc := by
    obtain ⟨p, hp⟩ := mem_nodes_iff.mp hn
    exact ht.start_of_head? hp hc
  last n hn c hc := by
    obtain ⟨p, hp⟩ := mem_nodes_iff.mp hn
    exact ht.stop_of_getLast? hp hc
  ordered n hn := by
    obtain ⟨p, hp⟩ := mem_nodes_iff.mp hn
    exact ht.pairwise_children hp
  root_stop := by
    rw [ht.span_eq (p := []) rfl, text, String.utf8ByteSize_append, Nat.add_sub_cancel]
    exact Nat.zero_add _
  laidOut := ht

end LaidOut

/-! ### Rewriting -/

/-- One rewriting of a tree: a replacement of a node, the fix of a call, or the fix that a written
finding asks for. -/
inductive Rewrites : Tree → Tree → Prop
  | replace {t t' : Tree} (p : Address) (new : Node) (h : t.replace p new = some t') :
      Rewrites t t'
  | fixAt {t t' : Tree} (s : Span) (v : View) (h : t.fixAt s v = .ok t') : Rewrites t t'
  | fixPayload {t t' : Tree} (json : String) (h : t.fixPayload json = .ok t') : Rewrites t t'

/-- Every rewriting leaves a laid out tree. -/
theorem Rewrites.laidOut {t t' : Tree} (h : Rewrites t t') : t'.LaidOut := by
  have hfix {s : Span} {v : View} (h : t.fixAt s v = .ok t') : t'.LaidOut := by
    obtain ⟨p, call, receiver, -, -, hrep⟩ := fixAt_eq_ok h
    exact laidOut_of_replace hrep
  cases h with
  | replace p new h => exact laidOut_of_replace h
  | fixAt s v h => exact hfix h
  | fixPayload json h =>
    obtain ⟨s, v, h⟩ := fixPayload_eq_ok h
    exact hfix h

/-- **Rewriting keeps spans true.** Every node of every tree can be replaced by any node, whatever
spans the two have, and the spans of the tree that results agree with its text; so do those of the
tree after any sequence of replacements and fixes. -/
theorem consistent_of_rewriting :
    (∀ (t : Tree) (p : Address) (old new : Node), t.root.at? p = some old →
      ∃ t', t.replace p new = some t' ∧ t'.Consistent) ∧
    ∀ t t' : Tree, Relation.TransGen Rewrites t t' → t'.Consistent := by
  constructor
  · intro t p old new hold
    obtain ⟨root, hroot⟩ := Node.replaceAt_eq_some hold new
    have hrep : t.replace p new = some (layout { t with root }) := by
      rw [replace, hroot]
      rfl
    exact ⟨_, hrep, (laidOut_of_replace hrep).consistent⟩
  · intro t t' h
    -- The last rewriting of the sequence lays the whole tree out, so the first ones do not matter.
    cases h with
    | single h => exact h.laidOut.consistent
    | tail _ h => exact h.laidOut.consistent

/-- Wrong spans, a branch without children and an empty token do no harm. -/
theorem consistent_of_rewriting_misplaced :
    let hole : Node := .branch "block" true ⟨7, 2⟩ []
    let blank : Node := .token "identifier" true ⟨5, 1⟩ " " ""
    let t : Tree :=
      ⟨.branch "argument" true ⟨9, 3⟩ [(none, hole), (some "name", blank)], "\n", true⟩
    t.root.at? [1] = some blank ∧
      (∃ t', t.replace [1] hole = some t' ∧ t'.Consistent) ∧
      Relation.TransGen Rewrites t t.layout ∧ t.layout.Consistent := by
  intro hole blank t
  have hstep : Relation.TransGen Rewrites t t.layout :=
    .single (.replace [] t.root (replace_root t))
  exact ⟨rfl, consistent_of_rewriting.1 t [1] blank hole rfl, hstep,
    consistent_of_rewriting.2 t t.layout hstep⟩

end Tree

end ViewLint
