import ViewLint.Proofs.Fix.Consistency

/-!
# Reading loses nothing

The lossless tree of a concrete one renders back to the source, and its spans are those that a
layout gives. Nothing is asked of the leaves but that they start and stop between characters of the
source: they may overlap, be empty, run backwards or be out of order.

The tree itself is kept too: reading the nodes of the lossless tree back gives the kinds and the
fields of the concrete one, and where the leaves follow each other also their ranges.

## Main definitions

* `Concrete.ranges`: the byte ranges of the leaves.
* `Concrete.Placed`: a node takes up the source between two offsets, and is laid out there.
* `Node.toConcrete`: the concrete tree of a node, with the spans of the tokens as ranges.
* `Concrete.skeleton`: the kinds and fields of a concrete tree.

## Main results

* `Concrete.placed_toNode`: a converted node is placed in the source.
* `Tree.ofConcrete_lossless`: the converted tree has the text of the source and true spans.
* `Tree.skeleton_ofConcrete`: the converted tree has the kinds and the fields of the concrete one.
* `Tree.toConcrete_ofConcrete`: where the leaves follow each other, it has their ranges as well.
-/

namespace ViewLint

namespace Concrete

mutual

/-- The offsets at which the leaves start and stop. -/
def ranges : Concrete → List (Nat × Nat)
  | .leaf _ _ start stop => [(start, stop)]
  | .node _ _ cs => rangesOf cs

/-- The offsets at which the leaves of children start and stop. -/
def rangesOf : List (Option String × Concrete) → List (Nat × Nat)
  | [] => []
  | (_, c) :: cs => c.ranges ++ rangesOf cs

end

/-- The offsets of some ranges stand between characters of the source. -/
def OnCharacters (source : String) (ranges : List (Nat × Nat)) : Prop :=
  ∀ r ∈ ranges, String.Pos.Raw.IsValid source ⟨r.1⟩ ∧ String.Pos.Raw.IsValid source ⟨r.2⟩

instance (source : String) (ranges : List (Nat × Nat)) : Decidable (OnCharacters source ranges) :=
  inferInstanceAs (Decidable (∀ r ∈ ranges,
    String.Pos.Raw.IsValid source ⟨r.1⟩ ∧ String.Pos.Raw.IsValid source ⟨r.2⟩))

/-- A text takes up the source from one offset to another. -/
structure Covers (source : String) (offset stop : Nat) (text : String) : Prop where
  valid : String.Pos.Raw.IsValid source ⟨stop⟩
  le : offset ≤ stop
  text_eq : text = sliceBytes source offset stop

namespace Covers

variable {source text text' : String} {offset next stop : Nat}

theorem nil (h : String.Pos.Raw.IsValid source ⟨offset⟩) : Covers source offset offset "" := by
  refine ⟨h, Nat.le_refl offset, ?_⟩
  have hsize := size_sliceBytes h h (Nat.le_refl offset)
  exact (String.utf8ByteSize_eq_zero_iff.mp (by omega)).symm

/-- What is taken up one after the other is taken up together. -/
theorem append (hoffset : String.Pos.Raw.IsValid source ⟨offset⟩)
    (h : Covers source offset next text) (h' : Covers source next stop text') :
    Covers source offset stop (text ++ text') := by
  refine ⟨h'.valid, Nat.le_trans h.le h'.le, ?_⟩
  rw [h.text_eq, h'.text_eq,
    sliceBytes_append_sliceBytes hoffset h.valid h'.valid h.le h'.le]

theorem size (hoffset : String.Pos.Raw.IsValid source ⟨offset⟩)
    (h : Covers source offset stop text) : offset + text.utf8ByteSize = stop := by
  rw [h.text_eq, size_sliceBytes hoffset h.valid h.le]

end Covers

/-! ### Conversion -/

variable {source : String} {offset : Nat}

theorem toNode_node_cons (kind : String) (named : Bool) (c : Child) (cs : List Child) :
    (node kind named (c :: cs)).toNode source offset =
      (Node.ofChildren kind (toNodes source (c :: cs) offset).1 named,
        (toNodes source (c :: cs) offset).2) := by
  rw [toNode]
  rfl

theorem toNodes_cons (f : Option String) (c : Concrete) (cs : List Child) :
    toNodes source ((f, c) :: cs) offset =
      ((f, (c.toNode source offset).1) :: (toNodes source cs (c.toNode source offset).2).1,
        (toNodes source cs (c.toNode source offset).2).2) := by
  rw [toNodes]

theorem isValid_max {i j : Nat} (hi : String.Pos.Raw.IsValid source ⟨i⟩)
    (hj : String.Pos.Raw.IsValid source ⟨j⟩) : String.Pos.Raw.IsValid source ⟨max i j⟩ := by
  rcases Nat.le_total i j with h | h
  · rwa [Nat.max_eq_right h]
  · rwa [Nat.max_eq_left h]

/-- A node takes up the source from an offset up to another, and has the spans of its layout
there. -/
structure Placed (source : String) (offset : Nat) (n : Node) (stop : Nat) : Prop where
  covers : Covers source offset stop n.fullText
  layout_eq : n.layout offset = (n, stop)

/-- Children take up the source from an offset up to another, and have the spans of their layout
there. -/
structure PlacedAll (source : String) (offset : Nat) (cs : List ViewLint.Child) (stop : Nat) :
    Prop where
  covers : Covers source offset stop (Node.fullTexts cs)
  layout_eq : Node.layoutAll cs offset = (cs, stop)

theorem PlacedAll.cons {f : Option String} {n : Node} {cs : List ViewLint.Child} {next stop : Nat}
    (hoffset : String.Pos.Raw.IsValid source ⟨offset⟩) (hn : Placed source offset n next)
    (hcs : PlacedAll source next cs stop) : PlacedAll source offset ((f, n) :: cs) stop where
  covers := by
    rw [Node.fullTexts]
    exact hn.covers.append hoffset hcs.covers
  layout_eq := by simp only [Node.layoutAll, hn.layout_eq, hcs.layout_eq]

/-- A node with the span of its children is placed where these are. -/
theorem PlacedAll.ofChildren {kind : String} {named : Bool} {c : ViewLint.Child}
    {cs : List ViewLint.Child} {stop : Nat} (h : PlacedAll source offset (c :: cs) stop) :
    Placed source offset (Node.ofChildren kind (c :: cs) named) stop where
  covers := by
    rw [Node.ofChildren, Node.fullText]
    exact h.covers
  layout_eq := by
    simp only [Node.ofChildren, Node.layout, h.layout_eq, Node.spanOf, Option.getD_some]

/-- A leaf is placed with the trivia before it. -/
theorem placed_leaf (kind : String) (named : Bool) {start stop : Nat}
    (hstart : String.Pos.Raw.IsValid source ⟨start⟩) (hstop : String.Pos.Raw.IsValid source ⟨stop⟩)
    (hoffset : String.Pos.Raw.IsValid source ⟨offset⟩) :
    Placed source offset ((leaf kind named start stop).toNode source offset).1
      ((leaf kind named start stop).toNode source offset).2 := by
  have hstart' := isValid_max hstart hoffset
  have hstop' := isValid_max hstop hstart'
  have hlead : Covers source offset (max start offset) _ :=
    ⟨hstart', Nat.le_max_right start offset, rfl⟩
  have htext : Covers source (max start offset) (max stop (max start offset)) _ :=
    ⟨hstop', Nat.le_max_right stop _, rfl⟩
  rw [toNode]
  constructor
  · rw [Node.fullText]
    exact hlead.append hoffset htext
  · rw [Node.layout, hlead.size hoffset, htext.size hstart']

mutual

/-- A converted node is placed in the source. -/
theorem placed_toNode (source : String) : ∀ (c : Concrete) (offset : Nat),
    OnCharacters source c.ranges → String.Pos.Raw.IsValid source ⟨offset⟩ →
    Placed source offset (c.toNode source offset).1 (c.toNode source offset).2
  | .leaf kind named start stop, offset, h, hoffset => by
    obtain ⟨hstart, hstop⟩ := h (start, stop) (by rw [ranges]; exact List.mem_singleton_self _)
    exact placed_leaf kind named hstart hstop hoffset
  | .node kind named [], offset, h, hoffset => by
    rw [toNode]
    exact ⟨.nil hoffset, rfl⟩
  | .node kind named ((f, c) :: cs), offset, h, hoffset => by
    rw [ranges] at h
    have hcs := placedAll_toNodes source ((f, c) :: cs) offset h hoffset
    rw [toNode_node_cons]
    rw [toNodes_cons] at hcs ⊢
    exact hcs.ofChildren

/-- Converted children are placed in the source. -/
theorem placedAll_toNodes (source : String) :
    ∀ (cs : List (Option String × Concrete)) (offset : Nat),
    OnCharacters source (rangesOf cs) → String.Pos.Raw.IsValid source ⟨offset⟩ →
    PlacedAll source offset (toNodes source cs offset).1 (toNodes source cs offset).2
  | [], offset, h, hoffset => by
    rw [toNodes]
    exact ⟨.nil hoffset, by rw [Node.layoutAll]⟩
  | (f, c) :: cs, offset, h, hoffset => by
    rw [rangesOf] at h
    have hfirst := placed_toNode source c offset (fun r hr => h r (List.mem_append_left _ hr))
      hoffset
    have hrest := placedAll_toNodes source cs _ (fun r hr => h r (List.mem_append_right _ hr))
      hfirst.covers.valid
    rw [toNodes_cons]
    exact .cons hoffset hfirst hrest

end

end Concrete

namespace Tree

/-- The span of a node of a laid out tree cuts its text out of the text of the tree. -/
theorem LaidOut.sliceBytes_span {t : Tree} {n : Node} (ht : t.LaidOut) (hn : n ∈ t.nodes) :
    String.Pos.Raw.IsValid t.text ⟨n.span.start⟩ ∧ String.Pos.Raw.IsValid t.text ⟨n.span.stop⟩ ∧
      n.span.start ≤ n.span.stop ∧ sliceBytes t.text n.span.start n.span.stop = n.text := by
  obtain ⟨p, hp⟩ := mem_nodes_iff.mp hn
  rw [ht.span_eq_offsets hp, LaidOut.text_eq hp]
  generalize t.root.before p ++ n.lead = before
  generalize t.root.after p ++ t.trailing = after
  refine ⟨?_, ?_, Nat.le_add_right _ _, sliceBytes_append before n.text after⟩
  · exact String.Pos.Raw.isValid_iff_exists_append.mpr
      ⟨before, n.text ++ after, String.append_assoc .., rfl⟩
  · exact String.Pos.Raw.isValid_iff_exists_append.mpr
      ⟨before ++ n.text, after, rfl, by rw [String.rawEndPos, String.utf8ByteSize_append]⟩

variable {source : String} {c : Concrete} (hasErrors : Bool)

theorem text_ofConcrete (h : Concrete.OnCharacters source c.ranges) :
    (ofConcrete source c hasErrors).text = source := by
  have hzero : String.Pos.Raw.IsValid source ⟨0⟩ := String.Pos.Raw.isValid_zero
  have hend : String.Pos.Raw.IsValid source ⟨source.utf8ByteSize⟩ :=
    String.Pos.Raw.isValid_rawEndPos
  have hcovers := (Concrete.placed_toNode source c 0 h hzero).covers
  rw [ofConcrete, text, hcovers.text_eq, sliceBytes_append_sliceBytes hzero hcovers.valid hend
    (Nat.zero_le _) hcovers.valid.le_utf8ByteSize]
  have hall := sliceBytes_zero_append source ""
  rwa [String.append_empty] at hall

theorem laidOut_ofConcrete (h : Concrete.OnCharacters source c.ranges) :
    (ofConcrete source c hasErrors).LaidOut :=
  laidOut_iff.mpr
    (congrArg Prod.fst (Concrete.placed_toNode source c 0 h String.Pos.Raw.isValid_zero).layout_eq)

/-- **Reading loses nothing.** Whatever ranges the leaves of a concrete tree have, if they start and
stop between characters of the source, the converted tree has the text of the source, the span of
each of its nodes cuts the text of the node out of the source, and replacing the root by itself
gives an equal tree. -/
theorem ofConcrete_lossless (source : String) (c : Concrete) (hasErrors : Bool)
    (h : Concrete.OnCharacters source c.ranges) :
    (ofConcrete source c hasErrors).text = source ∧
    (∀ n ∈ (ofConcrete source c hasErrors).nodes,
      String.Pos.Raw.IsValid source ⟨n.span.start⟩ ∧ String.Pos.Raw.IsValid source ⟨n.span.stop⟩ ∧
      n.span.start ≤ n.span.stop ∧ sliceBytes source n.span.start n.span.stop = n.text) ∧
    (ofConcrete source c hasErrors).replace [] (ofConcrete source c hasErrors).root =
      some (ofConcrete source c hasErrors) := by
  refine ⟨text_ofConcrete hasErrors h, ?_, laidOut_ofConcrete hasErrors h⟩
  intro n hn
  have hcuts := (laidOut_ofConcrete hasErrors h).sliceBytes_span hn
  rwa [text_ofConcrete hasErrors h] at hcuts

/-- Leaves over each other, a missing token, a node without children and a leaf that runs
backwards. -/
def tangled : Concrete :=
  .node "block" true [(some "left", .leaf "identifier" true 1 3), (none, .leaf "=" false 0 5),
    (none, .leaf ";" false 5 5), (none, .node "block" true []),
    (none, .node "block" true [(some "right", .leaf "identifier" true 9 6)])]

/-- Nothing of a source is lost between tangled leaves. -/
theorem ofConcrete_lossless_tangled :
    Concrete.OnCharacters " é = aé\n" tangled.ranges ∧
    (ofConcrete " é = aé\n" tangled true).text = " é = aé\n" ∧
    (∀ n ∈ (ofConcrete " é = aé\n" tangled true).nodes,
      sliceBytes " é = aé\n" n.span.start n.span.stop = n.text) ∧
    (ofConcrete " é = aé\n" tangled true).LaidOut := by
  have h : Concrete.OnCharacters " é = aé\n" tangled.ranges := by decide
  obtain ⟨htext, hcuts, hlaid⟩ := ofConcrete_lossless " é = aé\n" tangled true h
  exact ⟨h, htext, fun n hn => (hcuts n hn).2.2.2, hlaid⟩

end Tree

/-! ### The shape of the tree -/

mutual

/-- The concrete tree of a node, with the spans of its tokens as ranges. -/
def Node.toConcrete : Node → Concrete
  | .token kind named span _ _ => .leaf kind named span.start span.stop
  | .branch kind named _ cs => .node kind named (Node.toConcretes cs)

/-- The concrete trees of children. -/
def Node.toConcretes : List (Option String × Node) → List (Option String × Concrete)
  | [] => []
  | (f, n) :: cs => (f, n.toConcrete) :: Node.toConcretes cs

end

namespace Concrete

mutual

/-- The kinds and the fields of a tree, without the ranges of its leaves. A node without children
counts as a leaf. -/
def skeleton : Concrete → Concrete
  | .leaf kind named _ _ => .leaf kind named 0 0
  | .node kind named cs =>
    if cs.isEmpty then .leaf kind named 0 0 else .node kind named (skeletons cs)

/-- The kinds and the fields of children. -/
def skeletons : List (Option String × Concrete) → List (Option String × Concrete)
  | [] => []
  | (f, c) :: cs => (f, c.skeleton) :: skeletons cs

end

mutual

/-- Every node of a tree has children. -/
def Branching : Concrete → Prop
  | .leaf .. => True
  | .node _ _ cs => cs ≠ [] ∧ BranchingAll cs

/-- Every node of some children has children. -/
def BranchingAll : List (Option String × Concrete) → Prop
  | [] => True
  | (_, c) :: cs => c.Branching ∧ BranchingAll cs

end

/-- The ranges follow each other from an offset up to another, and none of them runs backwards. -/
def InOrder (offset : Nat) : List (Nat × Nat) → Nat → Prop
  | [], stop => offset = stop
  | r :: rs, stop => offset ≤ r.1 ∧ r.1 ≤ r.2 ∧ InOrder r.2 rs stop

theorem inOrder_append {rs rs' : List (Nat × Nat)} {offset stop : Nat} :
    InOrder offset (rs ++ rs') stop ↔ ∃ next, InOrder offset rs next ∧ InOrder next rs' stop := by
  induction rs generalizing offset with
  | nil => simp only [List.nil_append, InOrder, exists_eq_left']
  | cons r rs ih => simp only [List.cons_append, InOrder, ih, and_assoc, exists_and_left]

theorem toConcrete_ofChildren (kind : String) (named : Bool) (cs : List ViewLint.Child) :
    (Node.ofChildren kind cs named).toConcrete = .node kind named (Node.toConcretes cs) := by
  rw [Node.ofChildren, Node.toConcrete]

mutual

/-- A converted node has the kinds and the fields of the concrete one. -/
theorem skeleton_toNode (source : String) : ∀ (c : Concrete) (offset : Nat),
    (c.toNode source offset).1.toConcrete.skeleton = c.skeleton
  | .leaf kind named start stop, offset => by
    rw [toNode, Node.toConcrete, skeleton, skeleton]
  | .node kind named [], offset => by
    rw [toNode]
    rfl
  | .node kind named ((f, c) :: cs), offset => by
    have hcs := skeletons_toNodes source ((f, c) :: cs) offset
    rw [toNode_node_cons, toConcrete_ofChildren, skeleton, skeleton, hcs, toNodes_cons,
      Node.toConcretes]
    rfl

theorem skeletons_toNodes (source : String) :
    ∀ (cs : List (Option String × Concrete)) (offset : Nat),
    skeletons (Node.toConcretes (toNodes source cs offset).1) = skeletons cs
  | [], offset => by
    rw [toNodes, Node.toConcretes]
  | (f, c) :: cs, offset => by
    rw [toNodes_cons, Node.toConcretes, skeletons, skeletons, skeleton_toNode source c offset,
      skeletons_toNodes source cs]

end

mutual

/-- Leaves that follow each other keep their ranges. -/
theorem toConcrete_toNode (source : String) : ∀ (c : Concrete) {offset stop : Nat},
    c.Branching → InOrder offset c.ranges stop →
    (c.toNode source offset).1.toConcrete = c ∧ (c.toNode source offset).2 = stop
  | .leaf kind named start stop', offset, stop, hc, h => by
    rw [ranges] at h
    obtain ⟨hstart, hstop, rfl⟩ := h
    rw [toNode, Node.toConcrete]
    simp only [Nat.max_eq_left hstart, Nat.max_eq_left hstop, and_self]
  | .node kind named [], offset, stop, hc, h => by
    rw [Branching] at hc
    exact absurd rfl hc.1
  | .node kind named ((f, c) :: cs), offset, stop, hc, h => by
    rw [Branching] at hc
    rw [ranges] at h
    obtain ⟨hcs, hstop⟩ := toConcretes_toNodes source ((f, c) :: cs) hc.2 h
    rw [toNode_node_cons, toConcrete_ofChildren, hcs]
    exact ⟨rfl, hstop⟩

theorem toConcretes_toNodes (source : String) :
    ∀ (cs : List (Option String × Concrete)) {offset stop : Nat},
    BranchingAll cs → InOrder offset (rangesOf cs) stop →
    Node.toConcretes (toNodes source cs offset).1 = cs ∧ (toNodes source cs offset).2 = stop
  | [], offset, stop, hcs, h => by
    rw [toNodes]
    rw [rangesOf] at h
    exact ⟨by rw [Node.toConcretes], h⟩
  | (f, c) :: cs, offset, stop, hcs, h => by
    rw [BranchingAll] at hcs
    rw [rangesOf, inOrder_append] at h
    obtain ⟨next, hfirst, hrest⟩ := h
    obtain ⟨hc, rfl⟩ := toConcrete_toNode source c hcs.1 hfirst
    obtain ⟨hcs, hstop⟩ := toConcretes_toNodes source cs hcs.2 hrest
    rw [toNodes_cons, Node.toConcretes, hc, hcs]
    exact ⟨rfl, hstop⟩

end

end Concrete

namespace Tree

/-- **Reading keeps the tree.** Whatever ranges the leaves of a concrete tree have, the converted
tree has its nodes, with the same kinds and in the same fields. -/
theorem skeleton_ofConcrete (source : String) (c : Concrete) (hasErrors : Bool) :
    (ofConcrete source c hasErrors).root.toConcrete.skeleton = c.skeleton :=
  Concrete.skeleton_toNode source c 0

/-- **Reading keeps the leaves.** Where the leaves of a concrete tree follow each other and each of
its nodes has children, the converted tree has the same leaves, at the same ranges. -/
theorem toConcrete_ofConcrete (source : String) {c : Concrete} {stop : Nat} (hasErrors : Bool)
    (hc : c.Branching) (h : Concrete.InOrder 0 c.ranges stop) :
    (ofConcrete source c hasErrors).root.toConcrete = c :=
  (Concrete.toConcrete_toNode source c hc h).1

end Tree

end ViewLint
