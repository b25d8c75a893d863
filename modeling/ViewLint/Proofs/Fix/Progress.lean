import ViewLint.Proofs.Fix.Backwards

/-!
# A fixing run makes progress

A fix puts the receiver of a call in the place of the call, so there is one call less, or several
fewer: those in the arguments go too. Findings that a fix brings to light are calls that were there
before. The findings that a run applies are a log of it: fixing them one after the other, each in
the tree that the ones before it left, gives the tree of the run, and the refused findings between
them play no part.

## Main definitions

* `Node.callCount`, `Tree.callCount`: the number of calls.
* `Analyzer.Replays`: a log of findings leads from one tree to another.

## Main results

* `Node.callCount_replaceAt`: the number of calls after a replacement.
* `Tree.callCount_fixAt_lt`: every fix lowers the number of calls.
* `Analyzer.replays_fixLoop`: the findings that a run applies are a log of the run.
* `Analyzer.fixTree_replays`: the log of a run gives its tree, and is no longer than the number of
  calls that are gone.
-/

namespace ViewLint

/-! ### The number of calls -/

namespace Node

/-- The number of calls among a node and all nodes below it. -/
def callCount (n : Node) : Nat :=
  n.preorder.countP (·.kind == "invocation_expression")

/-- The number of calls in children. -/
def callCounts (cs : List Child) : Nat :=
  (cs.flatMap fun c => c.2.preorder).countP (·.kind == "invocation_expression")

theorem callCounts_append (cs ds : List Child) :
    callCounts (cs ++ ds) = callCounts cs + callCounts ds := by
  rw [callCounts, List.flatMap_append, List.countP_append, callCounts, callCounts]

theorem callCounts_cons (c : Child) (cs : List Child) :
    callCounts (c :: cs) = c.2.callCount + callCounts cs := by
  rw [callCounts, List.flatMap_cons, List.countP_append, callCount, callCounts]

theorem callCount_eq (n : Node) : n.callCount =
    (n.kind == "invocation_expression").toNat + callCounts n.children := by
  rw [callCount, preorder_eq_cons, List.countP_cons, Nat.add_comm, callCounts]
  cases n.kind == "invocation_expression" <;> rfl

/-- Calls are counted whatever the spans are. -/
theorem callCount_bare (n : Node) : n.bare.callCount = n.callCount := by
  rw [callCount, preorder_of_children children_bare, List.countP_map, callCount]
  simp only [Function.comp_def, kind_bare]

theorem callCount_layout (n : Node) (offset : Nat) :
    (n.layout offset).1.callCount = n.callCount := by
  rw [← callCount_bare, bare_layout, callCount_bare]

theorem callCount_le_of_mem {cs : List Child} {c : Child} (hc : c ∈ cs) :
    c.2.callCount ≤ callCounts cs := by
  obtain ⟨before, after, rfl⟩ := List.append_of_mem hc
  rw [callCounts_append, callCounts_cons]
  omega

/-- The calls of the replaced node go, and those of the new one come. -/
theorem callCount_replaceAt {m m' old new : Node} {p : Address}
    (h : m.replaceAt p new = some m') (hold : m.at? p = some old) :
    m'.callCount + old.callCount = m.callCount + new.callCount := by
  induction p generalizing m m' with
  | nil =>
    rw [replaceAt_nil] at h
    obtain rfl := Option.some.inj h
    obtain rfl := Option.some.inj hold
    exact Nat.add_comm _ _
  | cons i p ih =>
    obtain ⟨k, nm, s, cs, c, c', rfl, hc, hc', rfl⟩ := replaceAt_cons_eq_some h
    obtain ⟨d, hd, hold⟩ := at?_cons_eq_some_iff.mp hold
    obtain rfl : c = d := Option.some.inj (hc.symm.trans hd)
    have hchild := ih hc' hold
    obtain ⟨hi, rfl⟩ := List.getElem?_eq_some_iff.mp hc
    -- The children before and after the changed one keep their calls.
    have hcs : cs = cs.take i ++ cs[i] :: cs.drop (i + 1) := by
      rw [← List.drop_eq_getElem_cons hi, List.take_append_drop]
    have hset : cs.set i (cs[i].1, c') = cs.take i ++ (cs[i].1, c') :: cs.drop (i + 1) := by
      rw [List.set_eq_take_append_cons_drop, if_pos hi]
    rw [callCount_eq, callCount_eq (.branch k nm s cs), children_branch, children_branch, hset]
    conv_rhs => rw [hcs]
    simp only [callCounts_append, callCounts_cons, kind]
    omega

/-- A member access adds no call to those of its receiver. -/
theorem callCount_memberAccess (receiver : Node) (member : String) :
    (receiver.memberAccess member).callCount = receiver.callCount := by
  simp [callCount, memberAccess, ofChildren, preorder, preorders, kind]

/-- A call has more calls than its receiver, as it is one itself. -/
theorem CallsThrough.callCount_lt {call callee receiver : Node}
    (h : call.CallsThrough callee receiver) : receiver.callCount < call.callCount := by
  have hmem {n m : Node} {name : String} (hm : n.field? name = some m) :
      ∃ c ∈ n.children, c.2 = m := by
    obtain ⟨c, hc, rfl⟩ := Option.map_eq_some_iff.mp hm
    exact ⟨c, List.mem_of_find?_eq_some hc, rfl⟩
  obtain ⟨c, hc, rfl⟩ := hmem h.function
  obtain ⟨d, hd, rfl⟩ := hmem h.expression
  have hcall := callCount_le_of_mem hc
  have hcallee := callCount_le_of_mem hd
  have haccess := callCount_eq c.2
  rw [callCount_eq call, h.isCall, beq_self_eq_true, Bool.toNat_true]
  omega

end Node

namespace Tree

variable {t t' : Tree} {s : Span} {v : View}

/-- The number of calls in a tree. -/
def callCount (t : Tree) : Nat :=
  t.nodes.countP (·.kind == "invocation_expression")

theorem callCount_eq_root (t : Tree) : t.callCount = t.root.callCount := by
  rw [callCount, nodes_eq_preorder, Node.callCount]

/-- **Every fix lowers the number of calls.** -/
theorem callCount_fixAt_lt (h : t.fixAt s v = .ok t') : t'.callCount < t.callCount := by
  obtain ⟨p, call, callee, receiver, hat, -, hthrough, hrep⟩ := fixAt_replaces h
  obtain ⟨root, hroot, rfl⟩ := replace_eq_some hrep
  have hcount := Node.callCount_replaceAt hroot hat
  have hlt := hthrough.callCount_lt
  rw [Node.callCount_memberAccess] at hcount
  rw [callCount_eq_root, callCount_eq_root, Node.callCount_layout]
  omega

end Tree

/-! ### Logs of runs -/

namespace Analyzer

variable {a : Analyzer} {file : String} {t t' : Tree} {f : Finding} {fs : List Finding}

/-- The findings lead from the first tree to the second: each is a finding of the tree that the
ones before it left, and its fix succeeds there. -/
inductive Replays (a : Analyzer) (file : String) : Tree → List Finding → Tree → Prop
  | done (t : Tree) : Replays a file t [] t
  | step {t u t' : Tree} {f : Finding} {fs : List Finding} (hf : f ∈ a.detect t file)
      (hfix : t.fix f = .ok u) (h : Replays a file u fs t') : Replays a file t (f :: fs) t'

namespace Replays

/-- A log is replayed by fixing its findings in turn. -/
theorem foldlM_fix (h : a.Replays file t fs t') : fs.foldlM Tree.fix t = .ok t' := by
  induction h with
  | done t => rfl
  | step hf hfix h ih =>
    rw [List.foldlM_cons, hfix]
    exact ih

/-- Each finding of a log takes at least one call away. -/
theorem length_add_callCount_le (h : a.Replays file t fs t') :
    fs.length + t'.callCount ≤ t.callCount := by
  induction h with
  | done t => exact Nat.le_of_eq (Nat.zero_add _)
  | step hf hfix h ih =>
    have hlt := Tree.callCount_fixAt_lt hfix
    rw [List.length_cons]
    omega

/-- A log can be cut anywhere. -/
theorem exists_of_append {fs gs : List Finding} (h : a.Replays file t (fs ++ gs) t') :
    ∃ u, a.Replays file t fs u ∧ a.Replays file u gs t' := by
  induction fs generalizing t with
  | nil => exact ⟨t, .done t, h⟩
  | cons f fs ih =>
    cases h with
    | step hf hfix h =>
      obtain ⟨u, hfs, hgs⟩ := ih h
      exact ⟨u, .step hf hfix hfs, hgs⟩

end Replays

/-- The findings that a run applies lead from its first tree to its last. -/
theorem replays_fixLoop (a : Analyzer) (file : String) (limit : Nat) (st : FixState) :
    ∃ fs, (a.fixLoop file limit st).applied.reverse = st.applied.reverse ++ fs ∧
      a.Replays file st.tree fs (a.fixLoop file limit st).tree := by
  induction limit generalizing st with
  | zero => exact ⟨[], (List.append_nil _).symm, .done _⟩
  | succ limit ih =>
    rw [fixLoop]
    split
    next => exact ⟨[], (List.append_nil _).symm, .done _⟩
    next f hnext =>
      have hf := (nextFinding?_eq_some hnext).1
      obtain ⟨fs, happlied, hreplays⟩ := ih (handle st f)
      cases hfix : st.tree.fix f with
      | ok t' =>
        refine ⟨f :: fs, ?_, .step hf hfix ?_⟩
        · rw [happlied, handle_ok hfix, List.reverse_cons, List.append_assoc]
          rfl
        · rwa [handle_ok hfix] at hreplays ⊢
      | error e =>
        -- A refused finding changes the failed and the rejected ones, and not the tree.
        refine ⟨fs, ?_, ?_⟩
        · rw [happlied, handle_error hfix]
        · rwa [handle_error hfix] at hreplays ⊢

/-- **A fixing run makes strict progress, and its log reproduces it.** The findings that a run
applies and the calls that it leaves are together no more than the calls that there were. Fixing the
applied findings in turn succeeds at each of them and ends in the tree of the run: each is a finding
of the tree in which it is fixed, and its fix lowers the number of calls. So what was refused leaves
no trace, and a run that applies nothing returns the tree it was given. -/
theorem fixTree_replays {applied : List Finding} {failed : List FailedFix}
    (h : a.fixTree t file = (t', applied, failed)) :
    applied.length + t'.callCount ≤ t.callCount ∧
      applied.foldlM Tree.fix t = .ok t' ∧
      (∀ before f after, applied = before ++ f :: after → ∃ u u',
        before.foldlM Tree.fix t = .ok u ∧ f ∈ a.detect u file ∧ u.fix f = .ok u' ∧
        u'.callCount < u.callCount ∧ after.foldlM Tree.fix u' = .ok t') ∧
      (applied = [] → t' = t) := by
  obtain ⟨fs, happlied, hreplays⟩ := replays_fixLoop a file maxFixesPerFile ⟨t, [], [], []⟩
  rw [fixTree, happlied] at h
  simp only [Prod.mk.injEq] at h
  obtain ⟨rfl, rfl, -⟩ := h
  simp only [List.reverse_nil, List.nil_append]
  refine ⟨hreplays.length_add_callCount_le, hreplays.foldlM_fix, ?_, ?_⟩
  · rintro before f after rfl
    obtain ⟨u, hbefore, hrest⟩ := hreplays.exists_of_append
    cases hrest with
    | step hf hfix hafter =>
      exact ⟨u, _, hbefore.foldlM_fix, hf, hfix, Tree.callCount_fixAt_lt hfix, hafter.foldlM_fix⟩
  · rintro rfl
    exact (Except.ok.inj hreplays.foldlM_fix).symm

/-- The refused call stays; the two others are fixed, the outer one of them after the inner one
has made a finding of it. -/
theorem fixTree_replays_chained :
    let run := ofDictionaries.fixTree Tree.chainedProjections "a.cs"
    Tree.chainedProjections.callCount = 3 ∧ run.1.callCount = 1 ∧
      (run.2.1.length = 2 ∧ run.2.2.length = 1) ∧
      run.2.1.length + run.1.callCount ≤ Tree.chainedProjections.callCount ∧
      run.2.1.foldlM Tree.fix Tree.chainedProjections = .ok run.1 := by
  intro run
  have hreplays := fixTree_replays (rfl : ofDictionaries.fixTree Tree.chainedProjections "a.cs" =
    (run.1, run.2.1, run.2.2))
  have hbefore : Tree.chainedProjections.callCount = 3 := by
    rw [Tree.callCount_eq_root]
    decide +kernel
  have hafter : run.1.callCount = 1 := by
    rw [Tree.callCount_eq_root]
    decide +kernel
  exact ⟨hbefore, hafter, by decide +kernel, hreplays.1, hreplays.2.1⟩

end Analyzer

end ViewLint
