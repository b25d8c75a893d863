import ViewLint.Proofs.Fix.Agreement
import ViewLint.Proofs.Fix.Shift

/-!
# Grammatical trees

The grammar puts the callee of a call first, before its arguments, and the receiver of a member
access first, before its name. In such a tree every call through a member access starts with its
receiver, and a fix leaves such a tree.

## Main definitions

* `Node.Grammatical`, `Tree.Grammatical`: the shapes that the grammar gives to nodes.

## Main results

* `Tree.Grammatical.fixesAt`: a replacement of a call by the view of its receiver is a fix.
* `Tree.FixesAt.grammatical`: a fix leaves a grammatical tree.
-/

namespace ViewLint

namespace Node

/-- Tokens have a text and branches a child. The callee of a call comes first, and the call has
arguments. The receiver of a member access comes first, and more children follow. -/
structure Grammatical (n : Node) : Prop where
  solid : n.Solid
  call : n.kind = "invocation_expression" →
    n.fields.head? = some (some "function") ∧ some "arguments" ∈ n.fields
  access : n.kind = "member_access_expression" →
    n.fields.head? = some (some "expression") ∧ 2 ≤ n.fields.length

instance : DecidablePred Grammatical := fun n =>
  decidable_of_iff (n.Solid ∧
    (n.kind = "invocation_expression" →
      n.fields.head? = some (some "function") ∧ some "arguments" ∈ n.fields) ∧
    (n.kind = "member_access_expression" →
      n.fields.head? = some (some "expression") ∧ 2 ≤ n.fields.length))
    ⟨fun h => ⟨h.1, h.2.1, h.2.2⟩, fun h => ⟨h.solid, h.call, h.access⟩⟩

theorem Grammatical.hasCallParts {n : Node} (h : n.Grammatical) : n.HasCallParts := by
  intro hkind
  obtain ⟨hfirst, harguments⟩ := h.call hkind
  exact ⟨List.mem_of_head? hfirst, harguments⟩

/-- Whether a node is grammatical can be told from its label. -/
theorem Grammatical.of_label_eq {n n' : Node} (hn : n.Grammatical) (h : n.label = n'.label) :
    n'.Grammatical := by
  obtain ⟨hkind, hfields⟩ := kind_fields_eq_of_label_eq h
  refine ⟨solid_of_label_eq h hn.solid, ?_, ?_⟩
  · rw [← hkind, ← hfields]
    exact hn.call
  · rw [← hkind, ← hfields]
    exact hn.access

/-- A node whose first child fills a field finds this child by the field. -/
theorem head?_children_of_field? {n c : Node} {name : String}
    (hfirst : n.fields.head? = some (some name)) (hc : n.field? name = some c) :
    n.children.head? = some (some name, c) := by
  rw [fields, List.head?_map, Option.map_eq_some_iff] at hfirst
  obtain ⟨⟨f, d⟩, hd, rfl⟩ := hfirst
  obtain ⟨ds, hds⟩ := List.head?_eq_some_iff.mp hd
  rw [field?, hds, List.find?_cons_of_pos (by simp)] at hc
  rw [hd, ← Option.some.inj hc]

/-- A grammatical call through a grammatical member access starts with its receiver. -/
theorem CallsThrough.startsWithReceiver {call callee receiver : Node}
    (h : call.CallsThrough callee receiver) (hcall : call.Grammatical)
    (hcallee : callee.Grammatical) : call.StartsWithReceiver callee receiver :=
  ⟨head?_children_of_field? (hcall.call h.isCall).1 h.function,
    head?_children_of_field? (hcallee.access h.isAccess).1 h.expression⟩

/-- A member access on a receiver is grammatical. -/
theorem grammatical_memberAccess (receiver : Node) (member : String) :
    (receiver.memberAccess member).Grammatical := by
  refine ⟨?_, ?_, ?_⟩
  · simp [memberAccess, ofChildren, Solid]
  · simp [memberAccess, ofChildren, kind]
  · simp [memberAccess, ofChildren, fields]

theorem grammatical_token {k text : String} {nm : Bool} {s : Span} {leading : String}
    (htext : text ≠ "") (hcall : k ≠ "invocation_expression")
    (haccess : k ≠ "member_access_expression") :
    (Node.token k nm s leading text).Grammatical :=
  ⟨htext, fun h => absurd h hcall, fun h => absurd h haccess⟩

end Node

namespace Tree

/-- All nodes of the tree have the shapes that the grammar gives them. -/
def Grammatical (t : Tree) : Prop :=
  ∀ n ∈ t.nodes, n.Grammatical

theorem Grammatical.solid {t : Tree} (hg : t.Grammatical) : ∀ n ∈ t.nodes, n.Solid :=
  fun n hn => (hg n hn).solid

theorem Grammatical.hasCallParts {t : Tree} (hg : t.Grammatical) :
    ∀ n ∈ t.nodes, n.HasCallParts :=
  fun n hn => (hg n hn).hasCallParts

variable {t t' : Tree} {p : Address} {call callee receiver : Node} {member : String}

/-- In a grammatical tree, the replacement of a call by a member of its receiver is a fix. -/
theorem Grammatical.fixesAt (hg : t.Grammatical) (ht : t.LaidOut)
    (hcall : t.root.at? p = some call) (hthrough : call.CallsThrough callee receiver)
    (hrep : t.replace p (receiver.memberAccess member) = some t') :
    FixesAt t t' p call callee receiver member := by
  have hfirst := Node.head?_children_of_field?
    ((hg call (mem_nodes_of_at? hcall)).call hthrough.isCall).1 hthrough.function
  have hcallee := Node.at?_append_child hcall (by rwa [← List.head?_eq_getElem?])
  exact ⟨ht, hcall, ht.start_lt_stop hg.solid hcall, hthrough,
    hthrough.startsWithReceiver (hg call (mem_nodes_of_at? hcall))
      (hg callee (mem_nodes_of_at? hcallee)), hrep⟩

/-- A fix with a member that has a name leaves a grammatical tree. -/
theorem FixesAt.grammatical (h : FixesAt t t' p call callee receiver member)
    (hg : t.Grammatical) (hmember : member ≠ "") : t'.Grammatical := by
  intro n' hn'
  obtain ⟨q, hq⟩ := mem_nodes_iff.mp hn'
  have hsplice := splicedAt_of_replace h.replaced
  by_cases hpq : p <+: q
  · -- Inside, the node has the label of a node of the new member access.
    obtain ⟨w, rfl⟩ := hpq
    obtain ⟨a, ha, haw⟩ := Node.exists_at?_of_append hq
    have hbare : a.bare = (receiver.memberAccess member).bare := by
      simpa [ha] using hsplice.inside
    have hmap : ((receiver.memberAccess member).at? w).map Node.bare = some n'.bare := by
      rw [← Node.at?_bare, ← hbare, Node.at?_bare, haw, Option.map_some]
    obtain ⟨m, hm, hmn⟩ := Option.map_eq_some_iff.mp hmap
    have hlabel : m.label = n'.label := by rw [← Node.label_bare, hmn, Node.label_bare]
    refine Node.Grammatical.of_label_eq ?_ hlabel
    rcases FixesAt.at?_memberAccess hm with ⟨r, rfl, hr⟩ | rfl | ⟨s, rfl⟩ | ⟨s, rfl⟩
    · exact hg m (mem_nodes_of_at? (p := p ++ 0 :: 0 :: r) (by rw [h.receiver_at, hr]))
    · exact Node.grammatical_memberAccess receiver member
    · exact Node.grammatical_token (by decide) (by decide) (by decide)
    · exact Node.grammatical_token hmember (by decide) (by decide)
  · have hlabel := hsplice.outside q hpq
    rw [hq, Option.map_some] at hlabel
    obtain ⟨n, hn, hlabel⟩ := Option.map_eq_some_iff.mp hlabel.symm
    exact (hg n (mem_nodes_of_at? hn)).of_label_eq hlabel

end Tree

end ViewLint
