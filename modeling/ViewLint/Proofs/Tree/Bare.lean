import ViewLint.Proofs.Tree.Address

/-!
# Nodes without their spans

The bare form of a node forgets all spans and keeps everything else. Two nodes with the same bare
form have the same kinds, fields, tokens and trivia at the same addresses, and so the same texts.

## Main definitions

* `Node.bare`: a node with all spans forgotten.
* `Node.label`: what a node has besides its span and what stands below it.
* `Node.fields`: the fields that the children of a node fill.

## Main results

* `Node.at?_bare`: addresses in a bare node.
* `Node.text_bare`, `Node.field?_bare`, `Node.significant_bare`: what the bare form keeps.
* `Node.label_eq_of_replaceAt`: a replacement keeps the labels above it.
-/

namespace ViewLint

namespace Node

mutual

/-- The node with all spans forgotten. -/
def bare : Node → Node
  | .token k n _ leading text => .token k n ⟨0, 0⟩ leading text
  | .branch k n _ cs => .branch k n ⟨0, 0⟩ (bares cs)

/-- The children with all spans forgotten. -/
def bares : List (Option String × Node) → List (Option String × Node)
  | [] => []
  | (f, n) :: cs => (f, n.bare) :: bares cs

end

theorem bares_eq_map : ∀ cs : List Child, bares cs = cs.map fun c => (c.1, c.2.bare)
  | [] => rfl
  | (f, n) :: cs => by rw [bares, bares_eq_map cs, List.map_cons]

@[simp] theorem kind_bare (n : Node) : n.bare.kind = n.kind := by
  cases n <;> rw [bare, kind] <;> rfl

@[simp] theorem named_bare (n : Node) : n.bare.named = n.named := by
  cases n <;> rw [bare, named] <;> rfl

theorem children_bare (n : Node) : n.bare.children = n.children.map fun c => (c.1, c.2.bare) := by
  cases n with
  | token => rw [bare]; rfl
  | branch k nm s cs => rw [bare, children_branch, bares_eq_map, children_branch]

/-! ### Texts -/

mutual

@[simp] theorem fullText_bare : ∀ n : Node, n.bare.fullText = n.fullText
  | .token k n s leading text => by rw [bare, fullText, fullText]
  | .branch k n s cs => by rw [bare, fullText, fullText, fullTexts_bares cs]

theorem fullTexts_bares : ∀ cs : List (Option String × Node), fullTexts (bares cs) = fullTexts cs
  | [] => by rw [bares]
  | (f, n) :: cs => by rw [bares, fullTexts, fullTexts, fullText_bare n, fullTexts_bares cs]

end

mutual

@[simp] theorem text_bare : ∀ n : Node, n.bare.text = n.text
  | .token k n s leading text => by rw [bare, Node.text, Node.text]
  | .branch k n s cs => by rw [bare, Node.text, Node.text, textOfFirst_bares cs]

theorem textOfFirst_bares :
    ∀ cs : List (Option String × Node), textOfFirst (bares cs) = textOfFirst cs
  | [] => by rw [bares]
  | (f, n) :: cs => by rw [bares, textOfFirst, textOfFirst, text_bare n, fullTexts_bares cs]

end

/-! ### Children -/

/-- A first child is found by the field it fills. -/
theorem field?_of_head? {n c : Node} {name : String}
    (h : n.children.head? = some (some name, c)) : n.field? name = some c := by
  obtain ⟨cs, hcs⟩ := List.head?_eq_some_iff.mp h
  rw [field?, hcs, List.find?_cons_of_pos (by simp)]
  rfl

@[simp] theorem field?_bare (n : Node) (name : String) :
    n.bare.field? name = (n.field? name).map bare := by
  rw [field?, children_bare, List.find?_map, Option.map_map, field?, Option.map_map]
  rfl

@[simp] theorem significant_bare (n : Node) : n.bare.significant = n.significant.map bare := by
  have hpred : (fun c : Node => c.named && c.kind != "comment") ∘ bare =
      fun c => c.named && c.kind != "comment" := by
    funext c
    rw [Function.comp_apply, named_bare, kind_bare]
  have hmap : n.bare.children.map (·.2) = (n.children.map (·.2)).map bare := by
    rw [children_bare, List.map_map, List.map_map]
    rfl
  rw [significant, hmap, List.filter_map, hpred, significant]

@[simp] theorem simpleName?_bare (n : Node) : n.bare.simpleName? = n.simpleName? := by
  rw [simpleName?, simpleName?, kind_bare, text_bare, children_bare, List.find?_map,
    Option.map_map]
  simp only [Function.comp_def, kind_bare, text_bare]

/-! ### Addresses -/

theorem at?_bare (n : Node) (p : Address) : n.bare.at? p = (n.at? p).map bare := by
  induction p generalizing n with
  | nil => rfl
  | cons i p ih =>
    rw [at?_cons, at?_cons, children_bare, List.getElem?_map]
    cases n.children[i]? with
    | none => rfl
    | some c => exact ih c.2

/-! ### Labels -/

/-- What a node has besides its span and the nodes below it: its kind, whether it is named, the
trivia and the text of a token, and the fields that its children fill. -/
def label : Node → String × Bool × Option (String × String) × List (Option String)
  | .token k n _ leading text => (k, n, some (leading, text), [])
  | .branch k n _ cs => (k, n, none, cs.map (·.1))

@[simp] theorem label_bare (n : Node) : n.bare.label = n.label := by
  cases n with
  | token => rw [bare]; rfl
  | branch k nm s cs => rw [bare, label, label, bares_eq_map, List.map_map]; rfl

/-- The fields that the children of a node fill, in order. -/
def fields (n : Node) : List (Option String) :=
  n.children.map (·.1)

theorem label_eq (n : Node) : ∃ token?, n.label = (n.kind, n.named, token?, n.fields) := by
  cases n with
  | token k nm s leading text => exact ⟨some (leading, text), rfl⟩
  | branch k nm s cs => exact ⟨none, rfl⟩

/-- The label of a node holds its kind and its fields. -/
theorem kind_fields_eq_of_label_eq {n n' : Node} (h : n.label = n'.label) :
    n.kind = n'.kind ∧ n.fields = n'.fields := by
  obtain ⟨token?, hn⟩ := label_eq n
  obtain ⟨token?', hn'⟩ := label_eq n'
  rw [hn, hn'] at h
  simp only [Prod.mk.injEq] at h
  exact ⟨h.1, h.2.2.2⟩

/-- A replacement below a node keeps its label. -/
theorem label_eq_of_replaceAt {n n' new : Node} {i : Nat} {p : Address}
    (h : n.replaceAt (i :: p) new = some n') : n'.label = n.label := by
  obtain ⟨k, nm, s, cs, c, c', rfl, hc, -, rfl⟩ := replaceAt_cons_eq_some h
  obtain ⟨hi, rfl⟩ := List.getElem?_eq_some_iff.mp hc
  have hget : (cs.map (·.1))[i]? = some cs[i].1 := by rw [List.getElem?_map, hc, Option.map_some]
  obtain ⟨hi', hget⟩ := List.getElem?_eq_some_iff.mp hget
  rw [label, label, List.map_set, ← hget, List.set_getElem_self]

end Node

end ViewLint
