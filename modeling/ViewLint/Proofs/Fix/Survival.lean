import Mathlib.Data.List.Basic
import ViewLint.Proofs.Fix.Agreement
import ViewLint.Proofs.Fix.Shift
import ViewLint.Proofs.Tree.Order

/-!
# Findings elsewhere survive a fix

A fix changes what stands at and above one call. A finding at any other node that is left is found
again, in the same order, with the same view and message; only its place in the text moves.

## Main definitions

* `Analyzer.findingAt?`, `Analyzer.detectAt`: findings with the addresses of their nodes.
* `Address.Survives`: the addresses whose nodes a fix keeps, apart from those above the call.
* `Tree.carried`: where a finding stands after a fix.

## Main results

* `Analyzer.findingAt?_beside`, `Analyzer.findingAt?_receiver`: the finding of a node that is kept.
* `Analyzer.Emits.before_fix`: where a finding of the fixed tree comes from.
* `Analyzer.detectAt_fixed`: the findings after a fix, in order.
* `Analyzer.fixAt_preserves_findings`: the same for the fix of a span.
-/

namespace ViewLint

/-- The node at the second address survives a fix of the call at the first: it stands beside the
call, or belongs to the receiver. -/
def Address.Survives (p q : Address) : Prop :=
  (¬ p <+: q ∧ ¬ q <+: p) ∨ p ++ [0, 0] <+: q

instance (p q : Address) : Decidable (Address.Survives p q) :=
  inferInstanceAs (Decidable ((¬ p <+: q ∧ ¬ q <+: p) ∨ p ++ [0, 0] <+: q))

/-- Where a finding stands after the fix of the call with span `s` at the address `p`. In the
receiver it moves one level up and keeps its span, elsewhere its span moves with the text. -/
def Tree.carried (t t' : Tree) (p : Address) (s : Span) (e : Address × Finding) :
    Address × Finding :=
  let index := Text.LineIndex.ofSource t'.text
  if p ++ [0, 0] <+: e.1 then (p ++ 0 :: e.1.drop (p.length + 2), e.2.placedAt index e.2.span)
  else
    (e.1, e.2.placedAt index
      (shiftAfter e.2.span s.stop t.root.span.stop t'.root.span.stop))

namespace Analyzer

variable {a : Analyzer} {t t' : Tree} {file member : String} {p q : Address}
  {call callee receiver n n' : Node}

/-! ### Findings and addresses -/

/-- The finding for the node at an address. -/
def findingAt? (a : Analyzer) (t : Tree) (file : String) (q : Address) : Option Finding :=
  (t.root.at? q).bind (a.visit file (Text.LineIndex.ofSource t.text))

theorem emits_iff_findingAt? {f : Finding} :
    a.Emits t file q f ↔ a.findingAt? t file q = some f :=
  Option.bind_eq_some_iff.symm

/-- The findings of a tree with the addresses of their nodes, in the order of the nodes. -/
def detectAt (a : Analyzer) (t : Tree) (file : String) : List (Address × Finding) :=
  t.root.addresses.filterMap fun q => (a.findingAt? t file q).map fun f => (q, f)

theorem map_snd_detectAt (a : Analyzer) (t : Tree) (file : String) :
    (a.detectAt t file).map (·.2) = a.detect t file := by
  rw [detect, Tree.nodes_eq_preorder, ← Node.filterMap_at?_addresses, List.filterMap_filterMap,
    detectAt, List.map_filterMap]
  refine List.filterMap_congr fun q _ => ?_
  rw [Option.map_map, findingAt?]
  exact Option.map_id'

/-- The findings at some of the addresses. -/
theorem filter_detectAt (a : Analyzer) (t : Tree) (file : String) (P : Address → Prop)
    [DecidablePred P] : (a.detectAt t file).filter (fun e => P e.1) =
      (t.root.addresses.filter fun q => P q).filterMap fun q =>
        (a.findingAt? t file q).map fun f => (q, f) := by
  rw [detectAt, List.filter_filterMap, List.filterMap_filter]
  refine List.filterMap_congr fun q _ => ?_
  cases a.findingAt? t file q with
  | none => simp
  | some f => simp [Option.filter]

/-! ### One node -/

/-- The finding of a node beside the fixed call moves with the text. -/
theorem findingAt?_beside (h : t.FixesAt t' p call callee receiver member) (hpq : ¬ p <+: q)
    (hqp : ¬ q <+: p) (hn : t.root.at? q = some n) :
    a.findingAt? t' file q = (a.findingAt? t file q).map fun f =>
      f.placedAt (Text.LineIndex.ofSource t'.text)
        (shiftAfter f.span call.span.stop t.root.span.stop t'.root.span.stop) := by
  obtain ⟨n', hn', hbare, hspan⟩ := h.beside hpq hqp hn
  rw [findingAt?, findingAt?, hn, hn', Option.bind_some, Option.bind_some,
    visit_of_bare_eq a file (Text.LineIndex.ofSource t.text) _ hbare, hspan]
  refine Option.map_congr fun f hf => ?_
  rw [(visit_eq_some hf).1]

/-- The finding of a node of the receiver keeps its span. -/
theorem findingAt?_receiver {r : Address} (h : t.FixesAt t' p call callee receiver member)
    (hn : receiver.at? r = some n) :
    a.findingAt? t' file (p ++ 0 :: r) = (a.findingAt? t file (p ++ 0 :: 0 :: r)).map fun f =>
      f.placedAt (Text.LineIndex.ofSource t'.text) f.span := by
  rw [findingAt?, findingAt?, h.receiver_kept hn, h.receiver_at, hn, Option.bind_some,
    Option.bind_some, visit_of_bare_eq a file (Text.LineIndex.ofSource t.text) _ rfl]
  refine Option.map_congr fun f hf => ?_
  rw [(visit_eq_some hf).1]

/-- The new member access is not flagged, nor are its dot and its name. -/
theorem findingAt?_new {w : Address} (h : t.FixesAt t' p call callee receiver member)
    (hw : w.head? ≠ some 0) : a.findingAt? t' file (p ++ w) = none := by
  rw [Option.eq_none_iff_forall_ne_some]
  intro f hf
  obtain ⟨n, hn, hvisit⟩ := Option.bind_eq_some_iff.mp hf
  obtain ⟨callee', receiver', hthrough⟩ := callsThrough_of_visit hvisit
  rcases h.origin hn hthrough.isCall with ⟨hpq, -⟩ | ⟨r, hr, -⟩
  · exact hpq (List.prefix_append p w)
  · rw [List.append_cancel_left hr] at hw
    exact hw rfl

/-- A finding of the fixed tree belongs to a node above the fixed call, to a node beside it, where
it was found before and has moved with the text, or to a node of the receiver, where it was found
before at the same span. -/
theorem Emits.before_fix {f : Finding} (h : t.FixesAt t' p call callee receiver member)
    (hf : a.Emits t' file q f) :
    Address.Above q p ∨
      ((¬ p <+: q ∧ ¬ q <+: p) ∧ ∃ f₀, a.Emits t file q f₀ ∧
        f = f₀.placedAt (Text.LineIndex.ofSource t'.text)
          (shiftAfter f₀.span call.span.stop t.root.span.stop t'.root.span.stop)) ∨
      ∃ r f₀, q = p ++ 0 :: r ∧ a.Emits t file (p ++ 0 :: 0 :: r) f₀ ∧
        f = f₀.placedAt (Text.LineIndex.ofSource t'.text) f₀.span := by
  obtain ⟨n', hn', hvisit⟩ := hf
  have hat : a.findingAt? t' file q = some f := emits_iff_findingAt?.mp ⟨n', hn', hvisit⟩
  obtain ⟨callee', receiver', hthrough⟩ := callsThrough_of_visit hvisit
  rcases h.origin hn' hthrough.isCall with ⟨hpq, n, hn⟩ | ⟨r, rfl, hr⟩
  · by_cases hqp : q <+: p
    · exact Or.inl ⟨hqp, fun heq => hpq (heq ▸ List.prefix_rfl)⟩
    · rw [findingAt?_beside h hpq hqp hn, Option.map_eq_some_iff] at hat
      obtain ⟨f₀, hf₀, rfl⟩ := hat
      exact Or.inr (Or.inl ⟨⟨hpq, hqp⟩, f₀, emits_iff_findingAt?.mpr hf₀, rfl⟩)
  · rw [findingAt?_receiver h hr, Option.map_eq_some_iff] at hat
    obtain ⟨f₀, hf₀, rfl⟩ := hat
    exact Or.inr (Or.inr ⟨r, f₀, rfl, emits_iff_findingAt?.mpr hf₀, rfl⟩)

/-! ### All nodes -/

/-- The addresses whose nodes survive the fix. -/
theorem filter_survives_addresses (h : t.FixesAt t' p call callee receiver member) :
    t.root.addresses.filter (fun q => Address.Survives p q) =
      t.root.leftOf p ++ receiver.addresses.map (fun r => p ++ 0 :: 0 :: r) ++
        t.root.rightOf p := by
  have hnot : t.root.addresses.filter (fun q => Address.Survives p q) =
      (t.root.addresses.filter fun q => ¬ Address.Above q p).filter
        fun q => Address.Survives p q := by
    rw [List.filter_filter]
    refine List.filter_congr fun q _ => ?_
    by_cases hq : Address.Survives p q
    · have habove : ¬ Address.Above q p := by
        rintro ⟨hqp, hne⟩
        rcases hq with ⟨-, hnot⟩ | hpq
        · exact hnot hqp
        · exact hne (hqp.eq_of_length_le ((List.prefix_append p [0, 0]).trans hpq).length_le)
      simp [hq, habove]
    · simp [hq]
  have hinside : (fun q => decide (Address.Survives p q)) ∘ (p ++ ·) =
      fun w => decide ([0, 0] <+: w) := by
    funext w
    simp [Address.Survives, List.prefix_append_right_inj]
  have hreceiver : call.at? [0, 0] = some receiver := by
    have hat := h.receiver_at []
    rwa [Node.at?_append_of_eq_some h.call_at] at hat
  have hleft : (t.root.leftOf p).filter (fun q => Address.Survives p q) = t.root.leftOf p :=
    List.filter_eq_self.mpr fun q hq => decide_eq_true (Or.inl (Node.beside_of_mem_leftOf hq))
  have hright : (t.root.rightOf p).filter (fun q => Address.Survives p q) = t.root.rightOf p :=
    List.filter_eq_self.mpr fun q hq => decide_eq_true (Or.inl (Node.beside_of_mem_rightOf hq))
  rw [hnot, Node.filter_not_above_addresses h.call_at, List.filter_append, List.filter_append,
    hleft, hright, List.filter_map, hinside, Node.filter_below_addresses hreceiver, List.map_map]
  rfl

/-- The addresses in the fixed tree, without those above the fixed call. -/
theorem filter_not_above_fixed (h : t.FixesAt t' p call callee receiver member) :
    t'.root.addresses.filter (fun q => ¬ Address.Above q p) =
      t.root.leftOf p ++ (p :: receiver.addresses.map (fun r => p ++ 0 :: r) ++
        [p ++ [1], p ++ [2]]) ++ t.root.rightOf p := by
  obtain ⟨root, hroot, rfl⟩ := Tree.replace_eq_some h.replaced
  have hat : root.at? p = some (receiver.memberAccess member) := by
    simpa using Node.at?_replaceAt_append hroot []
  have hnew : (receiver.memberAccess member).addresses =
      [] :: receiver.addresses.map (0 :: ·) ++ [[1], [2]] := by
    simp [Node.memberAccess, Node.ofChildren, Node.addresses, Node.addressesFrom]
  dsimp only
  rw [← Node.addresses_bare, Node.bare_layout, Node.addresses_bare,
    Node.filter_not_above_addresses hat, Node.leftOf_replaceAt hroot, Node.rightOf_replaceAt hroot,
    hnew]
  simp

/-- The findings at addresses beside the fixed call. -/
theorem filterMap_findingAt?_beside (h : t.FixesAt t' p call callee receiver member)
    {qs : List Address} (hnodes : ∀ q ∈ qs, q ∈ t.root.addresses)
    (hbeside : ∀ q ∈ qs, ¬ p <+: q ∧ ¬ q <+: p) :
    (qs.filterMap fun q => (a.findingAt? t' file q).map fun f => (q, f)) =
      (qs.filterMap fun q => (a.findingAt? t file q).map fun f => (q, f)).map
        (t.carried t' p call.span) := by
  rw [List.map_filterMap]
  refine List.filterMap_congr fun q hq => ?_
  obtain ⟨n, hn⟩ := Node.exists_at?_of_mem_addresses (hnodes q hq)
  obtain ⟨hpq, hqp⟩ := hbeside q hq
  have hout : ¬ p ++ [0, 0] <+: q := fun hin => hpq ((List.prefix_append p [0, 0]).trans hin)
  rw [findingAt?_beside h hpq hqp hn, Option.map_map, Option.map_map]
  refine Option.map_congr fun f _ => ?_
  rw [Function.comp_apply, Function.comp_apply, Tree.carried, if_neg hout]

/-- The findings at addresses of the receiver. -/
theorem filterMap_findingAt?_receiver (h : t.FixesAt t' p call callee receiver member) :
    ((receiver.addresses.map fun r => p ++ 0 :: r).filterMap fun q =>
        (a.findingAt? t' file q).map fun f => (q, f)) =
      ((receiver.addresses.map fun r => p ++ 0 :: 0 :: r).filterMap fun q =>
        (a.findingAt? t file q).map fun f => (q, f)).map (t.carried t' p call.span) := by
  rw [List.map_filterMap, List.filterMap_map, List.filterMap_map]
  refine List.filterMap_congr fun r hr => ?_
  obtain ⟨n, hn⟩ := Node.exists_at?_of_mem_addresses hr
  have hin : p ++ [0, 0] <+: p ++ 0 :: 0 :: r := ⟨r, by simp⟩
  have hdrop : (p ++ 0 :: 0 :: r).drop (p.length + 2) = r := by simp
  rw [Function.comp_apply, Function.comp_apply, findingAt?_receiver h hn, Option.map_map,
    Option.map_map]
  refine Option.map_congr fun f _ => ?_
  rw [Function.comp_apply, Function.comp_apply, Tree.carried, if_pos hin, hdrop]

/-- The findings of the fixed tree that are not above the fixed call are those of the nodes that
survived, in order. -/
theorem detectAt_fixed (a : Analyzer) (file : String)
    (h : t.FixesAt t' p call callee receiver member) :
    (a.detectAt t' file).filter (fun e => ¬ Address.Above e.1 p) =
      ((a.detectAt t file).filter fun e => Address.Survives p e.1).map
        (t.carried t' p call.span) := by
  have hnew (w : Address) (hw : w.head? ≠ some 0) :
      ((a.findingAt? t' file (p ++ w)).map fun f => (p ++ w, f)) = none := by
    rw [findingAt?_new h hw, Option.map_none]
  have hself := hnew [] (by simp)
  rw [List.append_nil] at hself
  rw [filter_detectAt a t' file fun q => ¬ Address.Above q p,
    filter_detectAt a t file fun q => Address.Survives p q, filter_not_above_fixed h,
    filter_survives_addresses h]
  simp only [List.filterMap_append, List.map_append, List.filterMap_cons_none, hself,
    hnew [1] (by simp), hnew [2] (by simp), List.filterMap_nil, List.append_nil, List.cons_append]
  rw [filterMap_findingAt?_receiver h,
    filterMap_findingAt?_beside h (fun q => Node.mem_addresses_of_mem_leftOf h.call_at)
      fun q => Node.beside_of_mem_leftOf,
    filterMap_findingAt?_beside h (fun q => Node.mem_addresses_of_mem_rightOf h.call_at)
      fun q => Node.beside_of_mem_rightOf]

/-- **Findings elsewhere survive a fix.** Let the fix of a call succeed in a laid out tree, where
the call is not empty and starts with its receiver. Then the findings of the fixed tree at nodes
that are not above the new member access are, in order, those of the tree beside the call and in
the receiver. They keep everything but their place: beside the call the span moves with the text,
in the receiver it stays. -/
theorem fixAt_preserves_findings {s : Span} {v : View} (a : Analyzer) (file : String)
    (ht : t.LaidOut) (hcall : t.callAt s = .ok (p, call)) (hfix : t.fixAt s v = .ok t')
    (hne : s.start < s.stop) (hstarts : call.StartsWithReceiver callee receiver) :
    (a.detectAt t file).map (·.2) = a.detect t file ∧
      (a.detectAt t' file).map (·.2) = a.detect t' file ∧
      (a.detectAt t' file).filter (fun e => ¬ Address.Above e.1 p) =
        ((a.detectAt t file).filter fun e => Address.Survives p e.1).map (t.carried t' p s) := by
  refine ⟨map_snd_detectAt a t file, map_snd_detectAt a t' file, ?_⟩
  have hfixes := Tree.fixesAt_of_fixAt ht hcall hfix hne hstarts
  rw [detectAt_fixed a file hfixes, (Tree.callAt_eq_ok hcall).2.2]

end Analyzer

/-! ### A text with three calls -/

/-- The arguments `(( d.Select(e=>e.Key)).Count( d.Select(e=>e.Key)), d.Select(e=>e.Key))`, laid
out: one call in the receiver of `Count`, one in its arguments, one after it. -/
def Tree.threeProjections : Tree :=
  let mark (text : String) : Child := (none, .token text false ⟨0, 0⟩ "" text)
  let arguments (ns : List Child) : Node := Node.ofChildren "argument_list" ns true
  let argument (n : Node) : Child := (none, Node.ofChildren "argument" [(none, n)] true)
  let receiver : Node :=
    Node.ofChildren "parenthesized_expression" [mark "(", (none, Node.projection), mark ")"] true
  let callee : Node := Node.ofChildren "member_access_expression"
    [(some "expression", receiver), mark ".",
      (some "name", .token "identifier" true ⟨0, 0⟩ "" "Count")] true
  let call : Node := Node.ofChildren "invocation_expression"
    [(some "function", callee),
      (some "arguments", arguments [mark "(", argument Node.projection, mark ")"])] true
  layout ⟨arguments [mark "(", argument call, mark ",", argument Node.projection, mark ")"],
    "", false⟩

/-- The fix of `Count` keeps the finding in its receiver, loses the one in its arguments, and moves
the one after it. -/
theorem Analyzer.fixAt_preserves_findings_three :
    let places (t : Tree) := (ofDictionary.detectAt t "a.cs").map fun e => (e.1, e.2.span)
    ∃ t' call, Tree.threeProjections.LaidOut ∧
      Tree.threeProjections.callAt ⟨1, 49⟩ = .ok ([1, 0], call) ∧
      (∃ callee receiver, call.StartsWithReceiver callee receiver) ∧
      Tree.threeProjections.fixAt ⟨1, 49⟩ .keys = .ok t' ∧
      places Tree.threeProjections =
        [([1, 0, 0, 0, 1], ⟨3, 21⟩), ([1, 0, 1, 1, 0], ⟨30, 48⟩), ([3, 0], ⟨51, 69⟩)] ∧
      places t' = [([1, 0, 0, 1], ⟨3, 21⟩), ([3, 0], ⟨29, 47⟩)] ∧
      (ofDictionary.detectAt t' "a.cs").filter (fun e => ¬ Address.Above e.1 [1, 0]) =
        ((ofDictionary.detectAt Tree.threeProjections "a.cs").filter fun e =>
          Address.Survives [1, 0] e.1).map (Tree.threeProjections.carried t' [1, 0] ⟨1, 49⟩) := by
  intro places
  refine ⟨_, _, rfl, rfl, ⟨_, _, rfl, rfl⟩, rfl, by decide +kernel, by decide +kernel, ?_⟩
  exact (fixAt_preserves_findings (t := Tree.threeProjections) (s := ⟨1, 49⟩) (v := .keys)
    ofDictionary "a.cs" rfl rfl rfl (by decide) ⟨rfl, rfl⟩).2.2

end ViewLint
