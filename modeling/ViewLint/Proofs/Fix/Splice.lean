import ViewLint.Proofs.Fix.Consistency

/-!
# A fix is one splice

A successful fix replaces one call by the view of its receiver. No other node changes but in its
span, and no byte outside the call does.

## Main definitions

* `Tree.SplicedAt`: one tree is another with a node replaced, spans apart.

## Main results

* `Tree.splicedAt_of_replace`: a replacement is a splice.
* `Tree.fixAt_splices`: a successful fix is one splice in the tree and in its text.
-/

namespace ViewLint

/-! ### Splices -/

/-- The second tree is the first with `new` at an address, spans apart: at the address stands
`new`, and every node outside of it has its kind, its tokens, its trivia and the fields of its
children as before. -/
structure Tree.SplicedAt (t t' : Tree) (p : Address) (new : Node) : Prop where
  inside : (t'.root.at? p).map Node.bare = some new.bare
  outside : ∀ q, ¬ p <+: q → (t'.root.at? q).map Node.label = (t.root.at? q).map Node.label
  trailing : t'.trailing = t.trailing
  hasErrors : t'.hasErrors = t.hasErrors

namespace Node

/-- A replacement keeps the labels of all nodes outside of it. -/
theorem map_label_at?_replaceAt {m m' new : Node} {p q : Address}
    (h : m.replaceAt p new = some m') (hpq : ¬ p <+: q) :
    (m'.at? q).map label = (m.at? q).map label := by
  by_cases hqp : q <+: p
  · obtain ⟨r, rfl⟩ := hqp
    obtain ⟨old, hold⟩ := at?_of_replaceAt h
    obtain ⟨a, ha, -⟩ := exists_at?_of_append hold
    obtain ⟨a', ha', hrep⟩ := at?_replaceAt_of_append h ha
    cases r with
    | nil => exact absurd ⟨[], by simp⟩ hpq
    | cons i r => rw [ha, ha', Option.map_some, Option.map_some, label_eq_of_replaceAt hrep]
  · rw [at?_replaceAt_of_disjoint h hpq hqp]

theorem map_label_at?_layout (n : Node) (offset : Nat) (p : Address) :
    ((n.layout offset).1.at? p).map label = (n.at? p).map label := by
  rw [at?_layout, Option.map_map]
  congr 1
  funext m
  rw [Function.comp_apply, ← label_bare, bare_layout, label_bare]

end Node

namespace Tree

/-- A replacement is a replacement below the root, laid out. -/
theorem replace_eq_some {t t' : Tree} {p : Address} {new : Node}
    (h : t.replace p new = some t') :
    ∃ root, t.root.replaceAt p new = some root ∧
      t' = ⟨(root.layout 0).1, t.trailing, t.hasErrors⟩ := by
  obtain ⟨root, hroot, rfl⟩ := Option.map_eq_some_iff.mp h
  exact ⟨root, hroot, rfl⟩

theorem splicedAt_of_replace {t t' : Tree} {p : Address} {new : Node}
    (h : t.replace p new = some t') : SplicedAt t t' p new := by
  obtain ⟨root, hroot, rfl⟩ := replace_eq_some h
  refine ⟨?_, ?_, rfl, rfl⟩
  · have hat : root.at? p = some new := by simpa using Node.at?_replaceAt_append hroot []
    rw [Node.at?_layout, hat, Option.map_some, Option.map_some, Node.bare_layout]
  · intro q hpq
    rw [Node.map_label_at?_layout, Node.map_label_at?_replaceAt hroot hpq]

/-- A replacement changes the text of a tree at one place. -/
theorem text_replace {t t' : Tree} {p : Address} {new : Node} (h : t.replace p new = some t') :
    t'.text = t.root.before p ++ new.fullText ++ (t.root.after p ++ t.trailing) := by
  obtain ⟨root, hroot, rfl⟩ := replace_eq_some h
  rw [text, Node.fullText_layout, Node.fullText_replaceAt hroot, String.append_assoc]

end Tree

/-! ### Fixes -/

namespace Node

/-- A member access reads as its receiver, a dot and the member. -/
theorem fullText_memberAccess (receiver : Node) (member : String) :
    (receiver.memberAccess member).fullText = receiver.fullText ++ "." ++ member := by
  rw [memberAccess, ofChildren, fullText, fullTexts, fullTexts, fullTexts, fullTexts, fullText,
    fullText, String.empty_append, String.empty_append, String.append_empty, String.append_assoc]

end Node

namespace Tree

variable {t t' : Tree} {s : Span} {v : View}

/-- What a successful fix has done. -/
theorem fixAt_replaces (h : t.fixAt s v = .ok t') :
    ∃ p call callee receiver, t.root.at? p = some call ∧ call.span = s ∧
      call.CallsThrough callee receiver ∧
      t.replace p (receiver.memberAccess v.member) = some t' := by
  obtain ⟨p, call, receiver, hcall, hrec, hrep⟩ := fixAt_eq_ok h
  obtain ⟨hat, hkind, hspan⟩ := callAt_eq_ok hcall
  obtain ⟨callee, hthrough⟩ := callsThrough_of_receiver hkind hrec
  exact ⟨p, call, callee, receiver, hat, hspan, hthrough, hrep⟩

/-- In a laid out tree a call can be cut out of the text by its span. -/
theorem LaidOut.text_eq_slices {p : Address} {n : Node} (ht : t.LaidOut)
    (hn : t.root.at? p = some n) :
    sliceBytes t.text 0 n.span.start = t.root.before p ++ n.lead ∧
      sliceBytes t.text n.span.stop t.text.utf8ByteSize = t.root.after p ++ t.trailing := by
  rw [ht.span_eq_offsets hn, LaidOut.text_eq hn]
  constructor
  · rw [String.append_assoc, sliceBytes_zero_append]
  · rw [← String.utf8ByteSize_append, sliceBytes_append_size]

/-- **A successful fix is one exact splice.** It has found a call with exactly the span, and puts
the view of the receiver in its place, where the receiver keeps its trivia. The text before and
after the call stays; where the call starts with its receiver in a laid out tree, the span cuts
out what is replaced. -/
theorem fixAt_splices (h : t.fixAt s v = .ok t') :
    ∃ p call callee receiver before after,
      (t.root.at? p = some call ∧ call.span = s ∧ call.CallsThrough callee receiver) ∧
      SplicedAt t t' p (receiver.memberAccess v.member) ∧
      t.text = before ++ call.fullText ++ after ∧
      t'.text = before ++ receiver.fullText ++ "." ++ v.member ++ after ∧
      (t.LaidOut → call.StartsWithReceiver callee receiver →
        t.text = sliceBytes t.text 0 s.start ++ call.text ++
          sliceBytes t.text s.stop t.text.utf8ByteSize ∧
        t'.text = sliceBytes t.text 0 s.start ++ receiver.text ++ "." ++ v.member ++
          sliceBytes t.text s.stop t.text.utf8ByteSize) := by
  obtain ⟨p, call, callee, receiver, hat, rfl, hthrough, hrep⟩ := fixAt_replaces h
  have htext' : t'.text = t.root.before p ++ receiver.fullText ++ "." ++ v.member ++
      (t.root.after p ++ t.trailing) := by
    rw [text_replace hrep, Node.fullText_memberAccess]
    simp only [String.append_assoc]
  refine ⟨p, call, callee, receiver, t.root.before p, t.root.after p ++ t.trailing,
    ⟨hat, rfl, hthrough⟩, splicedAt_of_replace hrep, ?_, htext', ?_⟩
  · rw [text, Node.fullText_eq_before_append hat, String.append_assoc]
  · intro ht hfirst
    obtain ⟨hbefore, hafter⟩ := ht.text_eq_slices hat
    rw [hbefore, hafter]
    refine ⟨LaidOut.text_eq hat, ?_⟩
    rw [htext', Node.fullText_eq_lead_append_text receiver, hfirst.lead_eq]
    simp only [String.append_assoc]

end Tree

/-! ### A text with two calls -/

/-- The call `d.Select(e=>e.Key)` after a blank, without spans. -/
def Node.projection : Node :=
  let mark (text : String) : Child := (none, .token text false ⟨0, 0⟩ "" text)
  let name (leading text : String) : Node := .token "identifier" true ⟨0, 0⟩ leading text
  let access (object : Node) (member : String) : Node :=
    ofChildren "member_access_expression"
      [(some "expression", object), mark ".", (some "name", name "" member)] true
  let selector : Node := ofChildren "lambda_expression"
    [(some "parameters", name "" "e"), mark "=>", (some "body", access (name "" "e") "Key")] true
  ofChildren "invocation_expression"
    [(some "function", access (name " " "d") "Select"),
      (some "arguments", ofChildren "argument_list"
        [mark "(", (none, ofChildren "argument" [(none, selector)] true), mark ")"] true)] true

/-- The arguments `( d.Select(e=>e.Key), d.Select(e=>e.Key))`, laid out. The first call is wrapped
in its argument, the second in one node more. -/
def Tree.projections : Tree :=
  let mark (text : String) : Child := (none, .token text false ⟨0, 0⟩ "" text)
  let argument (n : Node) : Child := (none, Node.ofChildren "argument" [(none, n)] true)
  let wrapped : Node := Node.ofChildren "checked_expression" [(none, Node.projection)] true
  layout ⟨Node.ofChildren "argument_list"
    [mark "(", argument Node.projection, mark ",", argument wrapped, mark ")"] true, "", false⟩

/-- The fix of the first call. -/
theorem Tree.fixAt_splices_projections :
    ∃ t', projections.fixAt ⟨2, 20⟩ .keys = .ok t' ∧ projections.LaidOut ∧
      t'.text = "( d.Keys, d.Select(e=>e.Key))" ∧
      ∃ p call callee receiver, projections.root.at? p = some call ∧ call.span = ⟨2, 20⟩ ∧
        call.CallsThrough callee receiver ∧
        SplicedAt projections t' p (receiver.memberAccess "Keys") := by
  refine ⟨_, rfl, rfl, rfl, ?_⟩
  obtain ⟨p, call, callee, receiver, -, -, ⟨hat, hspan, hthrough⟩, hsplice, -⟩ :=
    fixAt_splices (t := projections) (s := ⟨2, 20⟩) (v := .keys) rfl
  exact ⟨p, call, callee, receiver, hat, hspan, hthrough, hsplice⟩

end ViewLint
