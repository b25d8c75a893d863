import ViewLint.Finding.Detect
import ViewLint.Proofs.Fix.Call
import ViewLint.Proofs.Rule.Bare

/-!
# Findings and the nodes they are emitted for

The findings of a tree are those that its nodes give, each node for itself. A node that gives a
finding is a call with a receiver, and the finding has the span of the node.

## Main definitions

* `Finding.placedAt`: a finding at another span.
* `Analyzer.Emits`: the node at an address gives a finding.

## Main results

* `Analyzer.mem_detect_iff`: the findings of a tree are those emitted at its addresses.
* `Analyzer.visit_eq_some`, `Analyzer.callsThrough_of_visit`: what is known of a flagged node.
* `Analyzer.visit_of_bare_eq`: a node with other spans is flagged alike.
-/

namespace ViewLint

/-- A node that matches is a call with a receiver. -/
theorem Settings.callsThrough_of_match? {s : Settings} {m : Model} {n : Node} {found : ViewMatch}
    (h : s.match? m n = some found) : ∃ callee receiver, n.CallsThrough callee receiver := by
  obtain ⟨callee, hcallee, h⟩ := Option.bind_eq_some_iff.mp h
  rw [calleeOf?] at hcallee
  split at hcallee
  next hkind =>
    obtain ⟨hfunction, haccess⟩ := Option.filter_eq_some_iff.mp hcallee
    split at h
    next =>
      obtain ⟨receiver, hreceiver, -⟩ := Option.bind_eq_some_iff.mp h
      exact ⟨callee, receiver, hkind, hfunction, by simpa using haccess, hreceiver⟩
    next => cases h
  next => cases hcallee

/-- The finding at another span, with the line and the column at which that starts. -/
def Finding.placedAt (f : Finding) (index : Text.LineIndex) (span : Span) : Finding :=
  { f with line := index.line span.start, column := index.column span.start, span }

namespace Analyzer

variable {a : Analyzer} {t : Tree} {file : String} {index : Text.LineIndex} {n n' : Node}
  {f : Finding}

/-- The node at an address of a tree gives a finding. -/
def Emits (a : Analyzer) (t : Tree) (file : String) (p : Address) (f : Finding) : Prop :=
  ∃ n, t.root.at? p = some n ∧ a.visit file (Text.LineIndex.ofSource t.text) n = some f

/-- The findings of a tree are those that the nodes at its addresses give. -/
theorem mem_detect_iff : f ∈ a.detect t file ↔ ∃ p, a.Emits t file p f := by
  rw [detect, List.mem_filterMap]
  constructor
  · rintro ⟨n, hn, hf⟩
    obtain ⟨p, hp⟩ := Tree.mem_nodes_iff.mp hn
    exact ⟨p, n, hp, hf⟩
  · rintro ⟨p, n, hp, hf⟩
    exact ⟨n, Tree.mem_nodes_of_at? hp, hf⟩

/-- A finding has the span of its node and the view that the node matches. -/
theorem visit_eq_some (h : a.visit file index n = some f) :
    f.span = n.span ∧ ∃ component, a.settings.match? a.model n = some ⟨f.view, component⟩ := by
  obtain ⟨found, hfound, rfl⟩ := Option.map_eq_some_iff.mp h
  exact ⟨rfl, found.component, hfound⟩

theorem callsThrough_of_visit (h : a.visit file index n = some f) :
    ∃ callee receiver, n.CallsThrough callee receiver := by
  obtain ⟨-, component, hmatch⟩ := visit_eq_some h
  exact Settings.callsThrough_of_match? hmatch

/-- A node that differs in nothing but spans is flagged alike, at its own place. -/
theorem visit_of_bare_eq (a : Analyzer) (file : String) (index index' : Text.LineIndex)
    (hbare : n'.bare = n.bare) :
    a.visit file index' n' = (a.visit file index n).map fun f => f.placedAt index' n'.span := by
  rw [visit, visit, Settings.match?_eq_of_bare_eq _ _ hbare, Option.map_map]
  rfl

end Analyzer

end ViewLint
