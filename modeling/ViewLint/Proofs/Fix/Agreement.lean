import ViewLint.Proofs.Finding.Detect
import ViewLint.Proofs.Fix.Splice
import ViewLint.Proofs.Tree.Wrapper

/-!
# The fixer finds the flagged call

A finding carries nothing but a span, and the fixer looks for the call again. In a laid out tree
without empty spans it finds the call that was flagged, if at most one node is wrapped around the
call; a second wrapper hides the call, and the fix is refused.

## Main definitions

* `Node.HasCallParts`: a call has a callee and arguments.

## Main results

* `Tree.LaidOut.callAt_span`, `Tree.LaidOut.callAt_hidden`: when the call is found.
* `Analyzer.fix_agrees`: the fix of a finding rewrites exactly the flagged call, or is refused.
-/

namespace ViewLint

namespace Node

/-- A call has a callee and arguments. -/
def HasCallParts (n : Node) : Prop :=
  n.kind = "invocation_expression" → some "function" ∈ n.fields ∧ some "arguments" ∈ n.fields

instance : DecidablePred HasCallParts := fun n =>
  inferInstanceAs (Decidable (n.kind = "invocation_expression" →
    some "function" ∈ n.fields ∧ some "arguments" ∈ n.fields))

/-- A node with a single child is no call: callee and arguments are two children. -/
theorem kind_ne_of_singleton {n : Node} {c : Child} (h : n.HasCallParts)
    (hc : n.children = [c]) : n.kind ≠ "invocation_expression" := by
  intro hkind
  obtain ⟨hfunction, harguments⟩ := h hkind
  rw [fields, hc, List.map_singleton, List.mem_singleton] at hfunction harguments
  exact absurd (hfunction.trans harguments.symm) (by decide)

end Node

namespace Tree.LaidOut

variable {t : Tree} {p : Address} {call : Node}

/-- A call with at most one wrapper is found by its span. -/
theorem callAt_span (ht : t.LaidOut) (hsolid : ∀ n ∈ t.nodes, n.Solid)
    (hparts : ∀ n ∈ t.nodes, n.HasCallParts) (hcall : t.root.at? p = some call)
    (hkind : call.kind = "invocation_expression") (hwrap : t.wrappers p ≤ 1) :
    t.callAt call.span = .ok (p, call) := by
  obtain ⟨q, r, rfl, hloc, hcount⟩ := ht.locate_wrapper hsolid hcall
  obtain ⟨n, hn, hspan⟩ := span_of_locate hloc
  match r with
  | [] =>
    rw [List.append_nil] at hcall ⊢
    exact callAt_of_call hloc hcall hkind
  | [i] =>
    obtain ⟨c, hc, rfl, -⟩ := ht.children_eq_singleton hsolid hn hcall hspan.symm
    have hcc : c.2 = call := by
      rw [Node.at?_append_of_eq_some hn, Node.at?_cons, hc] at hcall
      exact Option.some.inj hcall
    exact callAt_of_wrapper (f := c.1) hloc hn
      (Node.kind_ne_of_singleton (hparts n (mem_nodes_of_at? hn)) hc) (by rw [hc, ← hcc]) hkind rfl
  | i :: j :: r =>
    rw [hcount, List.length_cons, List.length_cons] at hwrap
    omega

/-- A call with two wrappers or more is hidden by the second. -/
theorem callAt_hidden (ht : t.LaidOut) (hsolid : ∀ n ∈ t.nodes, n.Solid)
    (hparts : ∀ n ∈ t.nodes, n.HasCallParts) (hcall : t.root.at? p = some call)
    (hwrap : 2 ≤ t.wrappers p) :
    ∃ kind, t.callAt call.span = .error (.notAnInvocation call.span kind) := by
  obtain ⟨q, r, rfl, hloc, hcount⟩ := ht.locate_wrapper hsolid hcall
  obtain ⟨n, hn, hspan⟩ := span_of_locate hloc
  match r with
  | [] =>
    rw [hcount, List.length_nil] at hwrap
    omega
  | [i] =>
    rw [hcount, List.length_singleton] at hwrap
    omega
  | i :: j :: r =>
    -- The outermost node with the span and its single child both have a single child.
    obtain ⟨c, hc, rfl, hcspan⟩ := ht.children_eq_singleton hsolid hn hcall hspan.symm
    have hcat : t.root.at? (q ++ [0]) = some c.2 := Node.at?_append_child hn (by rw [hc]; rfl)
    obtain ⟨d, hd, -, -⟩ := ht.children_eq_singleton (i := j) (q := r) hsolid hcat
      (by rwa [List.append_assoc, List.singleton_append]) (hspan.symm.trans hcspan.symm)
    refine ⟨n.kind, callAt_of_no_call hloc hn
      (Node.kind_ne_of_singleton (hparts n (mem_nodes_of_at? hn)) hc) ?_⟩
    intro e he _
    rw [hc, List.mem_singleton] at he
    rw [he]
    exact Node.kind_ne_of_singleton (hparts c.2 (mem_nodes_of_at? hcat)) hd

end Tree.LaidOut

namespace Analyzer

variable {a : Analyzer} {t : Tree} {file : String} {p : Address} {f : Finding}

/-- The fix of a finding whose call has at most one wrapper replaces this call. -/
theorem fix_of_callsThrough {call callee receiver : Node} (ht : t.LaidOut)
    (hsolid : ∀ n ∈ t.nodes, n.Solid) (hparts : ∀ n ∈ t.nodes, n.HasCallParts)
    (hcall : t.root.at? p = some call) (hspan : f.span = call.span)
    (hthrough : call.CallsThrough callee receiver) (hwrap : t.wrappers p ≤ 1) :
    ∃ t', t.fix f = .ok t' ∧ t.replace p (receiver.memberAccess f.view.member) = some t' := by
  have hat := ht.callAt_span hsolid hparts hcall hthrough.isCall hwrap
  rw [Tree.fix, hspan]
  exact Tree.fixAt_of_callAt hat (Tree.receiverOfCall?_of_callsThrough hthrough) f.view

/-- **Detector and fixer agree on the node.** Every finding is emitted for the call at some
address. If at most one node above the call has its span, the fix of the finding replaces the call
at this address by the view of its receiver, and no other node; if two or more have it, the fix is
refused. -/
theorem fix_agrees (ht : t.LaidOut) (hsolid : ∀ n ∈ t.nodes, n.Solid)
    (hparts : ∀ n ∈ t.nodes, n.HasCallParts) :
    (∀ f, f ∈ a.detect t file ↔ ∃ p, a.Emits t file p f) ∧
    ∀ p f, a.Emits t file p f → ∃ call callee receiver,
      t.root.at? p = some call ∧ call.CallsThrough callee receiver ∧
      (t.wrappers p ≤ 1 → ∃ t', t.fix f = .ok t' ∧ t'.LaidOut ∧
        t.SplicedAt t' p (receiver.memberAccess f.view.member)) ∧
      (2 ≤ t.wrappers p → ∃ kind, t.fix f = .error (.notAnInvocation f.span kind)) := by
  refine ⟨fun f => mem_detect_iff, ?_⟩
  rintro p f ⟨call, hcall, hvisit⟩
  obtain ⟨callee, receiver, hthrough⟩ := callsThrough_of_visit hvisit
  obtain ⟨hspan, -⟩ := visit_eq_some hvisit
  refine ⟨call, callee, receiver, hcall, hthrough, ?_, ?_⟩
  · intro hwrap
    obtain ⟨t', hfix, hrep⟩ := fix_of_callsThrough ht hsolid hparts hcall hspan hthrough hwrap
    exact ⟨t', hfix, Tree.laidOut_of_replace hrep, Tree.splicedAt_of_replace hrep⟩
  · intro hwrap
    obtain ⟨kind, hat⟩ := ht.callAt_hidden hsolid hparts hcall hwrap
    refine ⟨kind, ?_⟩
    rw [Tree.fix, hspan, Tree.fixAt, hat]

/-- Knows `d` as a dictionary, and `Select` as a projection. -/
def ofDictionary : Analyzer :=
  let select : Method := ⟨"Select", ⟨"System.Linq", "Enumerable"⟩, none⟩
  let dictionary : QualifiedName := ⟨"System.Collections.Generic", "Dictionary"⟩
  ⟨⟨[⟨select.container, select.name⟩], [dictionary], .standard⟩,
    ⟨[("d", .value .localVariable "d" dictionary)], [], [select]⟩⟩

/-- One wrapper lets the first call be found, and the second wrapper hides the second call. -/
theorem fix_agrees_projections :
    Tree.projections.LaidOut ∧ (∀ n ∈ Tree.projections.nodes, n.Solid) ∧
    (∀ n ∈ Tree.projections.nodes, n.HasCallParts) ∧
    (Tree.projections.wrappers [1, 0] = 1 ∧ ∃ f t', ∃ receiver : Node,
      ofDictionary.Emits Tree.projections "a.cs" [1, 0] f ∧ Tree.projections.fix f = .ok t' ∧
      Tree.projections.SplicedAt t' [1, 0] (receiver.memberAccess "Keys")) ∧
    Tree.projections.wrappers [3, 0, 0] = 2 ∧ ∃ f kind,
      ofDictionary.Emits Tree.projections "a.cs" [3, 0, 0] f ∧
      Tree.projections.fix f = .error (.notAnInvocation f.span kind) := by
  have ht : Tree.projections.LaidOut := rfl
  have hsolid : ∀ n ∈ Tree.projections.nodes, n.Solid := by
    rw [Tree.nodes_eq_preorder]
    decide
  have hparts : ∀ n ∈ Tree.projections.nodes, n.HasCallParts := by
    rw [Tree.nodes_eq_preorder]
    decide
  have hfirst : ∃ f, ofDictionary.Emits Tree.projections "a.cs" [1, 0] f ∧ f.view = .keys :=
    ⟨_, ⟨_, rfl, rfl⟩, rfl⟩
  have hsecond : ∃ f, ofDictionary.Emits Tree.projections "a.cs" [3, 0, 0] f :=
    ⟨_, _, rfl, rfl⟩
  refine ⟨ht, hsolid, hparts, ⟨by decide, ?_⟩, by decide, ?_⟩
  · obtain ⟨f, hf, hview⟩ := hfirst
    obtain ⟨-, -, receiver, -, -, hfound, -⟩ := (fix_agrees ht hsolid hparts).2 [1, 0] f hf
    obtain ⟨t', hfix, -, hsplice⟩ := hfound (by decide)
    rw [hview] at hsplice
    exact ⟨f, t', receiver, hf, hfix, hsplice⟩
  · obtain ⟨f, hf⟩ := hsecond
    obtain ⟨-, -, -, -, -, -, hhidden⟩ := (fix_agrees ht hsolid hparts).2 [3, 0, 0] f hf
    obtain ⟨kind, hfix⟩ := hhidden (by decide)
    exact ⟨f, kind, hf, hfix⟩

end Analyzer

end ViewLint
