import ViewLint.Proofs.Fix.Exhaustive

/-!
# Fixes run backwards

A run handles the findings of a file from its end to its start. After each step all findings to
the right of the one just handled are refused ones: a fix moves them and their refused spans by the
same distance, and every finding that it brings to light stands above the fixed call and starts no
later than that.

## Main definitions

* `Analyzer.handled`: the findings that a run handles, in order.
* `Analyzer.RefusedBeyond`: to the right of an offset all findings are refused.

## Main results

* `Analyzer.foldl_handled`, `Analyzer.exists_of_foldl_handle`: the run as its sequence of steps.
* `Analyzer.RefusedBeyond.handle`: a step leaves only refused findings to its right.
* `Analyzer.fixTree_backwards`: the starts of the findings that a run handles never increase.
-/

namespace ViewLint

namespace Analyzer

variable {a : Analyzer} {t t' : Tree} {file : String} {st : FixState} {f : Finding} {limit : Nat}

/-! ### The findings that a run handles -/

/-- The findings that a run handles with at most `limit` steps, in order. -/
def handled (a : Analyzer) (file : String) : Nat → FixState → List Finding
  | 0, _ => []
  | limit + 1, st =>
    match a.nextFinding? file st with
    | none => []
    | some f => f :: handled a file limit (handle st f)

/-- A run handles its findings one after the other. -/
theorem foldl_handled (a : Analyzer) (file : String) (limit : Nat) (st : FixState) :
    (a.handled file limit st).foldl handle st = a.fixLoop file limit st := by
  induction limit generalizing st with
  | zero => rfl
  | succ limit ih =>
    rw [handled, fixLoop]
    cases a.nextFinding? file st with
    | none => rfl
    | some f => exact ih (handle st f)

/-- Each finding that is handled is then applied or failed, and both lists keep the order. -/
theorem exists_of_foldl_handle (fs : List Finding) (st : FixState) :
    ∃ applied failed : List Finding,
      (fs.foldl handle st).applied.reverse = st.applied.reverse ++ applied ∧
      (fs.foldl handle st).failed.reverse.map (·.finding) =
        st.failed.reverse.map (·.finding) ++ failed ∧
      applied.Sublist fs ∧ failed.Sublist fs ∧ fs.Perm (applied ++ failed) := by
  induction fs generalizing st with
  | nil => exact ⟨[], [], by simp, by simp, .slnil, .slnil, .nil⟩
  | cons f fs ih =>
    obtain ⟨applied, failed, happlied, hfailed, hsub, hsub', hperm⟩ := ih (handle st f)
    rw [List.foldl_cons]
    cases hfix : st.tree.fix f with
    | ok t' =>
      refine ⟨f :: applied, failed, ?_, ?_, hsub.cons_cons f, hsub'.cons f, hperm.cons f⟩
      · rw [happlied, handle_ok hfix]
        simp
      · rw [hfailed, handle_ok hfix]
    | error e =>
      refine ⟨applied, f :: failed, ?_, ?_, hsub.cons f, hsub'.cons_cons f, ?_⟩
      · rw [happlied, handle_error hfix]
      · rw [hfailed, handle_error hfix]
        simp
      · exact (hperm.cons f).trans List.perm_middle.symm

/-! ### One step -/

/-- The next finding was not refused before. -/
theorem not_mem_rejected_of_nextFinding? (h : a.nextFinding? file st = some f) :
    (f.span, f.view) ∉ st.rejected := by
  have hmem := (List.mem_filter.mp (rightmost?_eq_some h).1).2
  simpa using hmem

/-- The tree is laid out and grammatical, and all findings that start after an offset were
refused. -/
structure RefusedBeyond (a : Analyzer) (file : String) (st : FixState) (offset : Nat) : Prop where
  laidOut : st.tree.LaidOut
  grammatical : st.tree.Grammatical
  refused : ∀ g ∈ a.detect st.tree file, offset < g.span.start → (g.span, g.view) ∈ st.rejected

namespace RefusedBeyond

variable {offset : Nat}

/-- The next finding does not start after the offset. -/
theorem start_le (h : a.RefusedBeyond file st offset) (hnext : a.nextFinding? file st = some f) :
    f.span.start ≤ offset := by
  by_contra hlt
  exact not_mem_rejected_of_nextFinding? hnext
    (h.refused f (nextFinding?_eq_some hnext).1 (by omega))

/-- After a step, all findings that start after the handled one are refused. -/
theorem handle (h : a.RefusedBeyond file st offset) (hnext : a.nextFinding? file st = some f) :
    a.RefusedBeyond file (handle st f) f.span.start := by
  obtain ⟨hf, hright⟩ := nextFinding?_eq_some hnext
  obtain ⟨p, hemits⟩ := mem_detect_iff.mp hf
  rcases hemits.fixesAt_or_hidden h.laidOut h.grammatical with
    ⟨t', call, callee, receiver, hfix, hspan, -, hfixes⟩ | hhidden
  · rw [handle_ok hfix]
    refine ⟨hfixes.laidOut_fixed, hfixes.grammatical h.grammatical f.view.member_ne_empty, ?_⟩
    intro g hg hlt
    rw [hspan] at hlt
    obtain ⟨q, hq⟩ := mem_detect_iff.mp hg
    -- The finding was there before, and its refused span has moved with it.
    obtain ⟨q₀, g₀, hemits₀, hlt₀, ⟨hmoved, hview⟩, -⟩ :=
      hq.before_fix_of_right hfixes h.grammatical hlt
    have hrejected := hright g₀ (mem_detect_iff.mpr ⟨q₀, hemits₀⟩) (by rwa [hspan])
    refine List.mem_map.mpr ⟨(g₀.span, g₀.view), hrejected, ?_⟩
    rw [hmoved, hview, hspan]
  · obtain ⟨e, he⟩ := h.grammatical.fixAt_hidden h.laidOut hhidden f.view
    rw [handle_error he]
    exact ⟨h.laidOut, h.grammatical, fun g hg hlt => List.mem_cons_of_mem _ (hright g hg hlt)⟩

/-! ### A run -/

/-- The findings that a run handles do not start after the offset, and their starts never
increase. -/
theorem pairwise_handled (h : a.RefusedBeyond file st offset) (limit : Nat) :
    (∀ f ∈ a.handled file limit st, f.span.start ≤ offset) ∧
      (a.handled file limit st).Pairwise fun f g => g.span.start ≤ f.span.start := by
  induction limit generalizing st offset with
  | zero => exact ⟨fun f hf => absurd hf List.not_mem_nil, .nil⟩
  | succ limit ih =>
    rw [handled]
    split
    next => exact ⟨fun f hf => absurd hf List.not_mem_nil, .nil⟩
    next f hnext =>
      have hle := h.start_le hnext
      obtain ⟨hbound, hsorted⟩ := ih (h.handle hnext)
      refine ⟨fun g hg => ?_, .cons hbound hsorted⟩
      rcases List.mem_cons.mp hg with rfl | hg
      · exact hle
      · exact Nat.le_trans (hbound g hg) hle

end RefusedBeyond

/-- Before a run nothing starts after the end of the tree. -/
theorem refusedBeyond_start (a : Analyzer) (file : String) (ht : t.LaidOut) (hg : t.Grammatical) :
    a.RefusedBeyond file ⟨t, [], [], []⟩ t.root.span.stop := by
  refine ⟨ht, hg, fun f hf hlt => ?_⟩
  have hle := start_le_root_stop ht hf
  omega

/-- **Fixes run from the end of the file backwards.** In a run on a laid out, grammatical tree, the
findings that are handled one after the other never start further to the right than those before
them, whether they were applied or refused, and also if a fix of the run brought them to light.
The findings handled are those applied together with those that failed, and both of these are
listed in the order of the run. -/
theorem fixTree_backwards {applied : List Finding} {failed : List FailedFix} (ht : t.LaidOut)
    (hg : t.Grammatical) (h : a.fixTree t file = (t', applied, failed)) :
    let start : FixState := ⟨t, [], [], []⟩
    let run := a.handled file maxFixesPerFile start
    run.Pairwise (fun f g => g.span.start ≤ f.span.start) ∧
      run.foldl handle start = a.fixLoop file maxFixesPerFile start ∧
      applied.Sublist run ∧ (failed.map (·.finding)).Sublist run ∧
      run.Perm (applied ++ failed.map (·.finding)) := by
  intro start run
  have hrun : run.foldl handle start = a.fixLoop file maxFixesPerFile start :=
    foldl_handled a file maxFixesPerFile start
  obtain ⟨applied', failed', happlied, hfailed, hsub, hsub', hperm⟩ :=
    exists_of_foldl_handle run start
  rw [fixTree, ← hrun] at h
  simp only [Prod.mk.injEq] at h
  obtain ⟨-, rfl, rfl⟩ := h
  refine ⟨((refusedBeyond_start a file ht hg).pairwise_handled maxFixesPerFile).2, hrun, ?_⟩
  rw [happlied, hfailed]
  exact ⟨hsub, hsub', hperm⟩

/-! ### A fix that brings a finding to light -/

/-- Knows `d` and `d.Keys` as dictionaries, and `Select` as a projection. -/
def ofDictionaries : Analyzer :=
  { ofDictionary with
    model := ofDictionary.model.bind "d.Keys"
      (.value .property "Keys" ⟨"System.Collections.Generic", "Dictionary"⟩) }

end Analyzer

/-- The arguments `( d.Select(e=>e.Key).Select(e=>e.Key), d.Select(e=>e.Key))`, laid out. The first
argument calls a member of a call; the second is wrapped in one node more. -/
def Tree.chainedProjections : Tree :=
  let mark (text : String) : Child := (none, .token text false ⟨0, 0⟩ "" text)
  let argument (n : Node) : Child := (none, Node.ofChildren "argument" [(none, n)] true)
  let chained : Node := (Node.projection.replaceAt [0, 0] Node.projection).getD Node.projection
  let wrapped : Node := Node.ofChildren "checked_expression" [(none, Node.projection)] true
  layout ⟨Node.ofChildren "argument_list"
    [mark "(", argument chained, mark ",", argument wrapped, mark ")"] true, "", false⟩

/-- The last call is handled first, and refused. Then the inner call of the chain is fixed, which
makes a finding of the outer one, and that is fixed in turn. -/
theorem Analyzer.fixTree_backwards_chained :
    let run := ofDictionaries.fixTree Tree.chainedProjections "a.cs"
    let steps := ofDictionaries.handled "a.cs" maxFixesPerFile ⟨Tree.chainedProjections, [], [], []⟩
    Tree.chainedProjections.LaidOut ∧ Tree.chainedProjections.Grammatical ∧
      (ofDictionaries.detect Tree.chainedProjections "a.cs").length = 2 ∧
      run.1.text = "( d.Keys.Keys, d.Select(e=>e.Key))" ∧
      steps.map (·.span) = [⟨39, 57⟩, ⟨2, 20⟩, ⟨2, 25⟩] ∧
      steps.Pairwise fun f g => g.span.start ≤ f.span.start := by
  intro run steps
  have hg : Tree.chainedProjections.Grammatical := by
    rw [Tree.Grammatical, Tree.nodes_eq_preorder]
    decide
  exact ⟨rfl, hg, by decide +kernel, by decide +kernel, by decide +kernel,
    (fixTree_backwards (t := Tree.chainedProjections) rfl hg rfl).1⟩

end ViewLint
