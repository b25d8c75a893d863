import ViewLint.Proofs.Finding.Order
import ViewLint.Proofs.Fix.Backwards
import ViewLint.Proofs.Fix.Consistency
import ViewLint.Proofs.Text.Position

/-!
# Findings are nested or apart

Two nodes of a laid out tree are nested or beside each other, and so are their spans. A flagged call
has a callee and arguments, each with a text of its own, so that no call below it has the same span.
The findings of a tree therefore have different spans; they are listed by their starts, and of those
that start together, as the calls of a chain do, the longer one comes first.

## Main definitions

* `Span.Nested`, `Span.Apart`: one span contains the other, or they have no byte in common.
* `Finding.Precedes`: how a finding stands to the findings after it.

## Main results

* `Settings.hasCallParts_of_match?`: a flagged call has a callee and arguments.
* `Tree.LaidOut.span_ne_of_above`: no node below a call has the span of the call.
* `Analyzer.Emits.precedes`: the findings of two nodes of which one is listed first.
* `Analyzer.detect_ordered`: the order and the spans of the findings of a tree.
-/

namespace ViewLint

/-- One of two spans contains the other. -/
def Span.Nested (s s' : Span) : Prop :=
  s.contains s' ∨ s'.contains s

/-- One of two spans stops before the other starts. -/
def Span.Apart (s s' : Span) : Prop :=
  s.stop ≤ s'.start ∨ s'.stop ≤ s.start

/-- How a finding stands to a finding that is listed after it. -/
structure Finding.Precedes (f g : Finding) : Prop where
  /-- The two have different spans. -/
  span_ne : f.span ≠ g.span
  /-- Their spans are nested or have no byte in common. -/
  nested_or_apart : f.span.Nested g.span ∨ f.span.Apart g.span
  /-- The first starts no later than the second. -/
  start_le : f.span.start ≤ g.span.start
  /-- If the two start together, the second stops earlier. -/
  stop_lt : f.span.start = g.span.start → g.span.stop < f.span.stop
  /-- The first is reported at no later a position. -/
  position_le : toLex (f.line, f.column) ≤ toLex (g.line, g.column)

/-! ### Calls with the same span -/

theorem Node.mem_fields_of_field? {n c : Node} {name : String} (h : n.field? name = some c) :
    some name ∈ n.fields := by
  obtain ⟨d, hd, -⟩ := Option.map_eq_some_iff.mp h
  have hname : d.1 = some name := by simpa using List.find?_some hd
  rw [← hname, Node.fields]
  exact List.mem_map_of_mem (List.mem_of_find?_eq_some hd)

/-- A node that matches has a callee and arguments. -/
theorem Settings.hasCallParts_of_match? {s : Settings} {m : Model} {n : Node} {found : ViewMatch}
    (h : s.match? m n = some found) : n.HasCallParts := by
  intro hkind
  obtain ⟨callee, receiver, hthrough⟩ := callsThrough_of_match? h
  refine ⟨Node.mem_fields_of_field? hthrough.function, ?_⟩
  obtain ⟨callee, -, h⟩ := Option.bind_eq_some_iff.mp h
  split at h
  next =>
    obtain ⟨receiver, -, h⟩ := Option.bind_eq_some_iff.mp h
    split at h
    next =>
      obtain ⟨lambda, hselector, -⟩ := Option.bind_eq_some_iff.mp h
      obtain ⟨arguments, harguments, -⟩ := Option.bind_eq_some_iff.mp hselector
      exact Node.mem_fields_of_field? harguments
    next => cases h
  next => cases h

namespace Tree.LaidOut

variable {t : Tree} {n m : Node} {p q : Address}

/-- No node below a call with a callee and arguments has the span of the call. -/
theorem span_ne_of_above (ht : t.LaidOut) (hsolid : ∀ n ∈ t.nodes, n.Solid)
    (hn : t.root.at? p = some n) (hm : t.root.at? q = some m) (hparts : n.HasCallParts)
    (hkind : n.kind = "invocation_expression") (habove : Address.Above p q) : n.span ≠ m.span := by
  intro hspan
  obtain ⟨⟨w, rfl⟩, hne⟩ := habove
  cases w with
  | nil => exact hne (List.append_nil p).symm
  | cons i w =>
    obtain ⟨c, hc, -, -⟩ := ht.children_eq_singleton hsolid hn hm hspan.symm
    exact Node.kind_ne_of_singleton hparts hc hkind

end Tree.LaidOut

namespace Analyzer

variable {a : Analyzer} {t : Tree} {file : String} {index : Text.LineIndex} {n : Node}
  {p q : Address} {f g : Finding}

/-- A finding is reported at the position at which its span starts. -/
theorem position_of_visit (h : a.visit file index n = some f) :
    f.line = index.line f.span.start ∧ f.column = index.column f.span.start := by
  obtain ⟨found, -, rfl⟩ := Option.map_eq_some_iff.mp h
  exact ⟨rfl, rfl⟩

/-- Positions are in the order of the starts of spans. -/
theorem Emits.position_le (hf : a.Emits t file p f) (hg : a.Emits t file q g)
    (hle : f.span.start ≤ g.span.start) :
    toLex (f.line, f.column) ≤ toLex (g.line, g.column) := by
  obtain ⟨n, -, hn⟩ := hf
  obtain ⟨m, -, hm⟩ := hg
  rw [(position_of_visit hn).1, (position_of_visit hn).2, (position_of_visit hm).1,
    (position_of_visit hm).2]
  exact (Text.LineIndex.strictMono_position t.text).monotone hle

/-- Of two findings, the one whose node is listed first precedes the other. -/
theorem Emits.precedes (ht : t.LaidOut) (hsolid : ∀ n ∈ t.nodes, n.Solid)
    (hf : a.Emits t file p f) (hg : a.Emits t file q g) (hpq : p < q) : f.Precedes g := by
  have hposition := hf.position_le hg
  obtain ⟨n, hn, hvisit⟩ := hf
  obtain ⟨m, hm, hvisit'⟩ := hg
  obtain ⟨hfspan, component, hmatch⟩ := visit_eq_some hvisit
  obtain ⟨hgspan, -⟩ := visit_eq_some hvisit'
  have hpos := ht.start_lt_stop hsolid hn
  have hpos' := ht.start_lt_stop hsolid hm
  rw [← hfspan] at hpos
  rw [← hgspan] at hpos'
  rcases ht.contains_or_stop_le hn hm hpq with ⟨habove, hcontains⟩ | hstop
  · obtain ⟨callee, receiver, hthrough⟩ := Settings.callsThrough_of_match? hmatch
    have hne := ht.span_ne_of_above hsolid hn hm (Settings.hasCallParts_of_match? hmatch)
      hthrough.isCall habove
    rw [← hfspan, ← hgspan] at hcontains hne
    have hle := Span.contains_iff.mp hcontains
    have hdiffer : ¬ (f.span.start = g.span.start ∧ f.span.stop = g.span.stop) :=
      fun h => hne (Span.eq_iff.mpr h)
    exact ⟨hne, Or.inl (Or.inl hcontains), hle.1, fun h => by omega, hposition hle.1⟩
  · rw [← hfspan, ← hgspan] at hstop
    have hlt : f.span.start < g.span.start := Nat.lt_of_lt_of_le hpos hstop
    exact ⟨fun h => by rw [h] at hlt; exact Nat.lt_irrefl _ hlt, Or.inr (Or.inl hstop),
      Nat.le_of_lt hlt, fun h => by omega, hposition (Nat.le_of_lt hlt)⟩

theorem detect_eq_filterMap_findingAt? (a : Analyzer) (t : Tree) (file : String) :
    a.detect t file = t.root.addresses.filterMap (a.findingAt? t file) := by
  rw [detect, Tree.nodes_eq_preorder, ← Node.filterMap_at?_addresses, List.filterMap_filterMap]
  rfl

/-- Every finding precedes those that are listed after it. -/
theorem pairwise_precedes_detect (a : Analyzer) (file : String) (ht : t.LaidOut)
    (hsolid : ∀ n ∈ t.nodes, n.Solid) : (a.detect t file).Pairwise Finding.Precedes := by
  rw [detect_eq_filterMap_findingAt?]
  refine List.Pairwise.filterMap _ (fun p q hpq f hf g hg => ?_) t.root.pairwise_lt_addresses
  exact Emits.precedes ht hsolid (emits_iff_findingAt?.mpr hf) (emits_iff_findingAt?.mpr hg) hpq

/-- **Findings are nested or apart, and in order.** In a laid out tree whose tokens have texts and
whose branches have children, every finding belongs to a flagged call; its span is not empty, and
the bytes of the tree in it are the text of the call. Every finding precedes those that are listed
after it: spans are different, and nested or apart; findings are listed by their starts, those that
start together by falling stops, and so by lines and columns. -/
theorem detect_ordered (a : Analyzer) (file : String) (ht : t.LaidOut)
    (hsolid : ∀ n ∈ t.nodes, n.Solid) :
    (∀ f ∈ a.detect t file, f.span.start < f.span.stop ∧
      ∃ call ∈ t.nodes, call.kind = "invocation_expression" ∧
        a.visit file (Text.LineIndex.ofSource t.text) call = some f ∧
        t.text.toUTF8.extract f.span.start f.span.stop = call.text.toUTF8) ∧
    (a.detect t file).Pairwise Finding.Precedes := by
  constructor
  · intro f hf
    obtain ⟨p, call, hcall, hvisit⟩ := mem_detect_iff.mp hf
    obtain ⟨callee, receiver, hthrough⟩ := callsThrough_of_visit hvisit
    have hmem := Tree.mem_nodes_of_at? hcall
    rw [(visit_eq_some hvisit).1]
    exact ⟨ht.start_lt_stop hsolid hcall, call, hmem, hthrough.isCall, hvisit,
      ht.consistent.bytes call hmem⟩
  · exact a.pairwise_precedes_detect file ht hsolid

/-- Knows `d` and `d.Select(e=>e.Key)` as dictionaries, and `Select` as a projection. -/
def ofChain : Analyzer :=
  { ofDictionary with
    model := ofDictionary.model.bind "d.Select(e=>e.Key)"
      (.value .property "Keys" ⟨"System.Collections.Generic", "Dictionary"⟩) }

/-- Both calls of a chain are flagged and start together; the whole chain comes first. -/
theorem detect_ordered_chained :
    Tree.chainedProjections.LaidOut ∧ (∀ n ∈ Tree.chainedProjections.nodes, n.Solid) ∧
      (ofChain.detect Tree.chainedProjections "a.cs").map (·.span) =
        [⟨2, 37⟩, ⟨2, 20⟩, ⟨39, 57⟩] ∧
      (ofChain.detect Tree.chainedProjections "a.cs").Pairwise Finding.Precedes := by
  have ht : Tree.chainedProjections.LaidOut := rfl
  have hsolid : ∀ n ∈ Tree.chainedProjections.nodes, n.Solid := by
    rw [Tree.nodes_eq_preorder]
    decide
  exact ⟨ht, hsolid, by decide +kernel, (detect_ordered ofChain "a.cs" ht hsolid).2⟩

end Analyzer

end ViewLint
