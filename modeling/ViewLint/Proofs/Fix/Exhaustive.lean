import Mathlib.Data.List.Induction
import ViewLint.Proofs.Fix.Hidden
import ViewLint.Proofs.Fix.Survival

/-!
# A fixing run leaves nothing fixable

A run fixes the rightmost finding that was not refused before. It is followed by a front, the start
of the call fixed last: to the right of the front all findings are hidden, and a refused span is
either still hidden or has moved to the right of the front, where it matches nothing that could be
fixed.

## Main definitions

* `Analyzer.Swept`: what holds of a run to the right of its front.

## Main results

* `Analyzer.Swept.handle`, `Analyzer.Swept.fixLoop`: a step keeps it, and so does a run.
* `Analyzer.fixTree_exhaustive`: a run that did not reach its limit leaves no finding that could
  be fixed.
-/

namespace ViewLint

theorem View.member_ne_empty (v : View) : v.member ≠ "" := by
  cases v <;> decide

/-! ### The next finding -/

theorem rightmost?_concat (fs : List Finding) (g : Finding) :
    rightmost? (fs ++ [g]) = match rightmost? fs with
      | none => some g
      | some b => if b.span.start ≤ g.span.start then some g else some b := by
  rw [rightmost?, List.foldl_append]
  rfl

theorem rightmost?_eq_none {fs : List Finding} (h : rightmost? fs = none) : fs = [] := by
  induction fs using List.reverseRecOn with
  | nil => rfl
  | append_singleton fs g ih =>
    rw [rightmost?_concat] at h
    split at h
    next => cases h
    next => split at h <;> cases h

/-- The rightmost finding is one of the findings, and none starts further to the right. -/
theorem rightmost?_eq_some {fs : List Finding} {f : Finding} (h : rightmost? fs = some f) :
    f ∈ fs ∧ ∀ g ∈ fs, g.span.start ≤ f.span.start := by
  induction fs using List.reverseRecOn generalizing f with
  | nil => cases h
  | append_singleton fs g ih =>
    rw [rightmost?_concat] at h
    split at h
    next hnone =>
      obtain rfl := Option.some.inj h
      rw [rightmost?_eq_none hnone]
      simp
    next b hb =>
      obtain ⟨hmem, hmax⟩ := ih hb
      split at h
      next hle =>
        obtain rfl := Option.some.inj h
        refine ⟨by simp, fun e he => ?_⟩
        rcases List.mem_append.mp he with he | he
        · exact Nat.le_trans (hmax e he) hle
        · exact Nat.le_of_eq (by rw [List.mem_singleton.mp he])
      next hlt =>
        obtain rfl := Option.some.inj h
        refine ⟨List.mem_append_left _ hmem, fun e he => ?_⟩
        rcases List.mem_append.mp he with he | he
        · exact hmax e he
        · rw [List.mem_singleton.mp he]
          omega

namespace Analyzer

variable {a : Analyzer} {t t' : Tree} {file : String} {st : FixState} {f : Finding} {p : Address}
  {front : Nat}

/-- The next finding was not refused before, but all findings further to the right were. -/
theorem nextFinding?_eq_some (h : a.nextFinding? file st = some f) :
    f ∈ a.detect st.tree file ∧ ∀ g ∈ a.detect st.tree file, f.span.start < g.span.start →
      (g.span, g.view) ∈ st.rejected := by
  obtain ⟨hmem, hmax⟩ := rightmost?_eq_some h
  refine ⟨(List.mem_filter.mp hmem).1, fun g hg hlt => ?_⟩
  by_contra hnot
  have hle := hmax g (List.mem_filter.mpr ⟨hg, by simpa using hnot⟩)
  omega

/-- A run ends when all findings were refused. -/
theorem nextFinding?_eq_none (h : a.nextFinding? file st = none) :
    ∀ g ∈ a.detect st.tree file, (g.span, g.view) ∈ st.rejected := by
  intro g hg
  have hnil := List.filter_eq_nil_iff.mp (rightmost?_eq_none h) g hg
  simpa using hnil

theorem handle_ok (h : st.tree.fix f = .ok t') :
    handle st f = { st with
      tree := t'
      applied := f :: st.applied
      rejected := st.rejected.map fun e =>
        (shiftAfter e.1 f.span.stop st.tree.root.span.stop t'.root.span.stop, e.2) } := by
  rw [handle, h]

theorem handle_error {e : FixError} (h : st.tree.fix f = .error e) :
    handle st f = { st with
      failed := ⟨f, e.message⟩ :: st.failed
      rejected := (f.span, f.view) :: st.rejected } := by
  rw [handle, h]

/-! ### One finding -/

/-- A finding is fixed, or its span is hidden at its call. -/
theorem Emits.fixesAt_or_hidden (h : a.Emits t file p f) (ht : t.LaidOut) (hg : t.Grammatical) :
    (∃ t' call callee receiver, t.fix f = .ok t' ∧ f.span = call.span ∧ t.wrappers p ≤ 1 ∧
      t.FixesAt t' p call callee receiver f.view.member) ∨ t.Hidden p f.span := by
  obtain ⟨call, hcall, hvisit⟩ := h
  obtain ⟨callee, receiver, hthrough⟩ := callsThrough_of_visit hvisit
  obtain ⟨hspan, -⟩ := visit_eq_some hvisit
  rcases Nat.lt_or_ge 1 (t.wrappers p) with hwrap | hwrap
  · rw [hspan]
    exact Or.inr (ht.hidden_of_two_le hg.solid hcall hwrap)
  · obtain ⟨t', hfix, hrep⟩ :=
      fix_of_callsThrough ht hg.solid hg.hasCallParts hcall hspan hthrough hwrap
    exact Or.inl ⟨t', call, callee, receiver, hfix, hspan, hwrap,
      hg.fixesAt ht hcall hthrough hrep⟩

/-- A finding whose span is hidden anywhere is hidden at its call. -/
theorem Emits.hidden_of_hidden {q : Address} (h : a.Emits t file p f) (ht : t.LaidOut)
    (hg : t.Grammatical) (hq : t.Hidden q f.span) : t.Hidden p f.span := by
  rcases h.fixesAt_or_hidden ht hg with ⟨t', -, -, -, hfix, -⟩ | hp
  · obtain ⟨e, he⟩ := hg.fixAt_hidden ht hq f.view
    rw [Tree.fix, he] at hfix
    cases hfix
  · exact hp

/-- A node above the fixed call does not start after it. -/
theorem Emits.start_le_of_above {call callee receiver : Node} {member : String} {q : Address}
    (hfix : t.FixesAt t' p call callee receiver member) (hq : Address.Above q p)
    (h : a.Emits t' file q f) : f.span.start ≤ call.span.start := by
  obtain ⟨⟨w, rfl⟩, hne⟩ := hq
  obtain ⟨n', hn', hvisit⟩ := h
  have hpq : ¬ q ++ w <+: q := fun hpq => hne (hpq.eq_of_length_le (by simp)).symm
  obtain ⟨n, hn⟩ := Node.exists_at?_above hfix.call_at ⟨w, rfl⟩
  obtain ⟨m, hm, hms⟩ := hfix.outside hpq hn
  obtain rfl : n' = m := Option.some.inj (hn'.symm.trans hm)
  have hin := hfix.laidOut.span_le_of_append hn hfix.call_at
  have hpos := hfix.nonempty
  rw [(visit_eq_some hvisit).1, hms, shiftAfter]
  dsimp only
  rw [if_neg (by omega)]
  exact hin.1

/-- A finding of the fixed tree that starts after the fixed call was a finding before, to the right
of the fixed one. It has moved with the text, and is hidden if it was hidden. -/
theorem Emits.before_fix_of_right {call callee receiver : Node} {member : String} {q : Address}
    (hfix : t.FixesAt t' p call callee receiver member) (hg : t.Grammatical)
    (h : a.Emits t' file q f) (hstart : call.span.start < f.span.start) :
    ∃ q₀ f₀, a.Emits t file q₀ f₀ ∧ call.span.start < f₀.span.start ∧
      (f.span = shiftAfter f₀.span call.span.stop t.root.span.stop t'.root.span.stop ∧
        f.view = f₀.view) ∧
      (t.Hidden q₀ f₀.span → t'.Hidden q f.span) := by
  rcases h.before_fix hfix with habove | ⟨⟨hpq, -⟩, f₀, hf₀, rfl⟩ | ⟨r, f₀, rfl, hf₀, rfl⟩
  · have hle := h.start_le_of_above hfix habove
    omega
  · refine ⟨q, f₀, hf₀, ?_, ⟨rfl, rfl⟩, hfix.hidden_outside hpq⟩
    -- A span that starts with the call or before it does not move past that start.
    have hpos := hfix.nonempty
    by_contra hle
    rw [Finding.placedAt, shiftAfter] at hstart
    dsimp only at hstart
    rw [if_neg (by omega)] at hstart
    omega
  · obtain ⟨n, hn, hvisit⟩ := hf₀
    have hstay := hfix.shiftAfter_receiver hg hn
    rw [← (visit_eq_some hvisit).1] at hstay
    exact ⟨p ++ 0 :: 0 :: r, f₀, ⟨n, hn, hvisit⟩, hstart, ⟨hstay.symm, rfl⟩,
      fun hhidden => (hfix.hidden_receiver hg hhidden).1⟩

/-! ### The front of a run -/

/-- What holds during a run: the findings to the right of the front are hidden, and a refused span
is hidden unless it starts there. -/
structure Swept (a : Analyzer) (file : String) (st : FixState) (front : Nat) : Prop where
  laidOut : st.tree.LaidOut
  grammatical : st.tree.Grammatical
  beyond : ∀ f ∈ a.detect st.tree file, front < f.span.start → ∃ q, st.tree.Hidden q f.span
  rejected : ∀ e ∈ st.rejected, (∃ q, st.tree.Hidden q e.1) ∨ front < e.1.start

/-- No finding starts after the end of the tree. -/
theorem start_le_root_stop (ht : t.LaidOut) (hf : f ∈ a.detect t file) :
    f.span.start ≤ t.root.span.stop := by
  obtain ⟨p, n, hn, hvisit⟩ := mem_detect_iff.mp hf
  have hin := ht.span_le_of_append (p := []) (q := p) rfl hn
  have hle := ht.start_le_stop hn
  rw [(visit_eq_some hvisit).1]
  omega

/-- Before a run nothing is to the right of the front. -/
theorem swept_start (ht : t.LaidOut) (hg : t.Grammatical) :
    a.Swept file ⟨t, [], [], []⟩ t.root.span.stop := by
  refine ⟨ht, hg, fun f hf hlt => ?_, fun e he => absurd he List.not_mem_nil⟩
  have hle := start_le_root_stop ht hf
  omega

namespace Swept

/-- A finding that is passed over is hidden. -/
theorem hidden_of_rejected (h : a.Swept file st front) (hf : f ∈ a.detect st.tree file)
    (hrej : (f.span, f.view) ∈ st.rejected) : ∃ q, st.tree.Hidden q f.span := by
  rcases h.rejected _ hrej with hidden | hlt
  · exact hidden
  · exact h.beyond f hf hlt

/-- A finding that can be fixed is not to the right of the front. -/
theorem start_le_front (h : a.Swept file st front) (hf : f ∈ a.detect st.tree file)
    (hfix : st.tree.fix f = .ok t') : f.span.start ≤ front := by
  by_contra hlt
  obtain ⟨q, hq⟩ := h.beyond f hf (by omega)
  obtain ⟨e, he⟩ := h.grammatical.fixAt_hidden h.laidOut hq f.view
  rw [Tree.fix, he] at hfix
  cases hfix

/-- One step moves the front to the call that it fixes, or adds a hidden span to the refused
ones. -/
theorem handle (h : a.Swept file st front) (hnext : a.nextFinding? file st = some f) :
    ∃ front', a.Swept file (handle st f) front' := by
  obtain ⟨hf, hright⟩ := nextFinding?_eq_some hnext
  obtain ⟨p, hemits⟩ := mem_detect_iff.mp hf
  rcases hemits.fixesAt_or_hidden h.laidOut h.grammatical with
    ⟨t', call, callee, receiver, hfix, hspan, hwrap, hfixes⟩ | hhidden
  · have hfront := h.start_le_front hf hfix
    rw [handle_ok hfix]
    refine ⟨call.span.start, hfixes.laidOut_fixed,
      hfixes.grammatical h.grammatical f.view.member_ne_empty, ?_, ?_⟩
    · intro g hg hlt
      obtain ⟨q, hq⟩ := mem_detect_iff.mp hg
      obtain ⟨q₀, g₀, hemits₀, hlt₀, -, hkept⟩ := hq.before_fix_of_right hfixes h.grammatical hlt
      have hg₀ := mem_detect_iff.mpr ⟨q₀, hemits₀⟩
      obtain ⟨r, hr⟩ := h.hidden_of_rejected hg₀ (hright g₀ hg₀ (by rwa [hspan]))
      exact ⟨q, hkept (hemits₀.hidden_of_hidden h.laidOut h.grammatical hr)⟩
    · intro e he
      obtain ⟨e₀, he₀, rfl⟩ := List.mem_map.mp he
      rw [hspan] at hfront ⊢
      rcases h.rejected e₀ he₀ with ⟨q, hq⟩ | hlt
      · rcases hfixes.hidden_moved h.grammatical hwrap hq with hmoved | hlt
        · exact Or.inl hmoved
        · exact Or.inr (hfixes.lt_start_shiftAfter hlt)
      · exact Or.inr (hfixes.lt_start_shiftAfter (by omega))
  · obtain ⟨e, he⟩ := h.grammatical.fixAt_hidden h.laidOut hhidden f.view
    rw [handle_error he]
    refine ⟨front, h.laidOut, h.grammatical, h.beyond, fun e he => ?_⟩
    rcases List.mem_cons.mp he with rfl | he
    · exact Or.inl ⟨p, hhidden⟩
    · exact h.rejected e he

/-- When a run is done, the fix of every finding is refused. -/
theorem refused (h : a.Swept file st front) (hdone : a.nextFinding? file st = none) :
    ∀ f ∈ a.detect st.tree file, ∃ e, st.tree.fix f = .error e := by
  intro f hf
  obtain ⟨q, hq⟩ := h.hidden_of_rejected hf (nextFinding?_eq_none hdone f hf)
  exact h.grammatical.fixAt_hidden h.laidOut hq f.view

theorem fixLoop (h : a.Swept file st front) (limit : Nat) :
    ∃ front', a.Swept file (a.fixLoop file limit st) front' := by
  induction limit generalizing st front with
  | zero => exact ⟨front, h⟩
  | succ limit ih =>
    rw [Analyzer.fixLoop]
    split
    next => exact ⟨front, h⟩
    next f hnext =>
      obtain ⟨front', h'⟩ := h.handle hnext
      exact ih h'

end Swept

/-! ### The end of a run -/

/-- Every handled finding is either applied or failed. -/
theorem length_handle (st : FixState) (f : Finding) :
    (handle st f).applied.length + (handle st f).failed.length =
      st.applied.length + st.failed.length + 1 := by
  cases hfix : st.tree.fix f with
  | ok t' =>
    rw [handle_ok hfix]
    dsimp only
    rw [List.length_cons]
    omega
  | error e =>
    rw [handle_error hfix]
    dsimp only
    rw [List.length_cons]
    omega

/-- A run ends because no finding is left to handle, or because it reached its limit. -/
theorem nextFinding?_fixLoop (a : Analyzer) (file : String) (limit : Nat) (st : FixState) :
    a.nextFinding? file (a.fixLoop file limit st) = none ∨
      (a.fixLoop file limit st).applied.length + (a.fixLoop file limit st).failed.length =
        st.applied.length + st.failed.length + limit := by
  induction limit generalizing st with
  | zero => exact Or.inr rfl
  | succ limit ih =>
    rw [fixLoop]
    split
    next hnone => exact Or.inl hnone
    next f hnext =>
      rcases ih (handle st f) with hdone | hcount
      · exact Or.inl hdone
      · rw [length_handle] at hcount
        exact Or.inr (by omega)

/-- As many spans are refused as findings failed. -/
theorem length_rejected_fixLoop (a : Analyzer) (file : String) (limit : Nat) (st : FixState)
    (h : st.rejected.length = st.failed.length) :
    (a.fixLoop file limit st).rejected.length = (a.fixLoop file limit st).failed.length := by
  induction limit generalizing st with
  | zero => exact h
  | succ limit ih =>
    rw [fixLoop]
    split
    next => exact h
    next f hnext =>
      refine ih _ ?_
      cases hfix : st.tree.fix f with
      | ok t' => rw [handle_ok hfix]; simpa using h
      | error e => rw [handle_error hfix]; simpa using h

/-- Where no finding can be fixed, a run changes nothing. -/
theorem fixLoop_of_refused (limit : Nat) (st : FixState)
    (h : ∀ f ∈ a.detect st.tree file, ∃ e, st.tree.fix f = .error e) :
    (a.fixLoop file limit st).tree = st.tree ∧
      (a.fixLoop file limit st).applied = st.applied := by
  induction limit generalizing st with
  | zero => exact ⟨rfl, rfl⟩
  | succ limit ih =>
    rw [fixLoop]
    split
    next => exact ⟨rfl, rfl⟩
    next f hnext =>
      obtain ⟨e, he⟩ := h f (nextFinding?_eq_some hnext).1
      rw [handle_error he]
      exact ih _ h

theorem fixTree_of_refused (h : ∀ f ∈ a.detect t file, ∃ e, t.fix f = .error e) :
    ∃ failed, a.fixTree t file = (t, [], failed) := by
  obtain ⟨htree, happlied⟩ := fixLoop_of_refused maxFixesPerFile ⟨t, [], [], []⟩ h
  rw [fixTree, htree, happlied, List.reverse_nil]
  exact ⟨_, rfl⟩

/-- A run that is done and has refused nothing leaves no finding. -/
theorem detect_eq_nil (hdone : a.nextFinding? file st = none) (h : st.rejected = []) :
    a.detect st.tree file = [] := by
  refine List.eq_nil_iff_forall_not_mem.mpr fun f hf => ?_
  have hmem := nextFinding?_eq_none hdone f hf
  rw [h] at hmem
  exact List.not_mem_nil hmem

/-- **No finding that could be fixed is left behind.** After a run on a laid out, grammatical tree
that did not reach its limit, the fix of every finding is refused. So a second run applies nothing
and leaves the tree as it is; and if no fix was refused, there is no finding left. -/
theorem fixTree_exhaustive {applied : List Finding} {failed : List FailedFix} (ht : t.LaidOut)
    (hg : t.Grammatical) (h : a.fixTree t file = (t', applied, failed))
    (hcount : applied.length + failed.length < maxFixesPerFile) :
    (∀ f ∈ a.detect t' file, ∃ e, t'.fix f = .error e) ∧
      (∃ failed', a.fixTree t' file = (t', [], failed')) ∧
      (failed = [] → a.detect t' file = []) := by
  obtain ⟨front, hswept⟩ : ∃ front, a.Swept file (a.fixLoop file maxFixesPerFile ⟨t, [], [], []⟩)
    front := (swept_start ht hg).fixLoop maxFixesPerFile
  have hended := nextFinding?_fixLoop a file maxFixesPerFile ⟨t, [], [], []⟩
  have hlength := length_rejected_fixLoop a file maxFixesPerFile ⟨t, [], [], []⟩ rfl
  rw [fixTree] at h
  generalize a.fixLoop file maxFixesPerFile ⟨t, [], [], []⟩ = st at h hswept hended hlength
  simp only [Prod.mk.injEq] at h
  obtain ⟨rfl, rfl, rfl⟩ := h
  rw [List.length_reverse, List.length_reverse] at hcount
  have hdone : a.nextFinding? file st = none :=
    hended.resolve_right (by simpa using Nat.ne_of_lt hcount)
  refine ⟨hswept.refused hdone, fixTree_of_refused (hswept.refused hdone), fun hfailed => ?_⟩
  rw [List.reverse_eq_nil_iff.mp hfailed, List.length_nil, List.length_eq_zero_iff] at hlength
  exact detect_eq_nil hdone hlength

/-- One of two calls is fixed; the finding of the other stays, and cannot be fixed. -/
theorem fixTree_exhaustive_projections :
    let run := ofDictionary.fixTree Tree.projections "a.cs"
    Tree.projections.LaidOut ∧ Tree.projections.Grammatical ∧
      (run.2.1.length = 1 ∧ run.2.2.length = 1) ∧
      (ofDictionary.detect run.1 "a.cs").length = 1 ∧
      (∀ f ∈ ofDictionary.detect run.1 "a.cs", ∃ e, run.1.fix f = .error e) ∧
      ∃ failed, ofDictionary.fixTree run.1 "a.cs" = (run.1, [], failed) := by
  intro run
  have hg : Tree.projections.Grammatical := by
    rw [Tree.Grammatical, Tree.nodes_eq_preorder]
    decide
  have hcounts : run.2.1.length = 1 ∧ run.2.2.length = 1 := by decide +kernel
  have hleft : (ofDictionary.detect run.1 "a.cs").length = 1 := by decide +kernel
  have hexhaustive := fixTree_exhaustive (a := ofDictionary) (t := Tree.projections) rfl hg
    (rfl : _ = (run.1, run.2.1, run.2.2)) (by rw [hcounts.1, hcounts.2]; decide)
  exact ⟨rfl, hg, hcounts, hleft, hexhaustive.1, hexhaustive.2.1⟩

end Analyzer

end ViewLint
