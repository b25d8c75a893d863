import ViewLint.Tree.Basic

/-!
# Layout

Laying out a node at an offset gives every token the span that its trivia and its text take up,
and every branch the span of its children. A branch without children gets the empty span at the
offset reached. Replacing a node of a tree lays the whole tree out again.

## Main definitions

* `Node.layout`: a node laid out at an offset, with the offset after it.
* `Tree.layout`: a tree laid out from its start.
* `Tree.replace`: the laid out tree with another node at an address.
-/

namespace ViewLint

namespace Node

mutual

/-- A node with the spans it has when its trivia starts at `offset`, and the offset after it. -/
def layout : Node → Nat → Node × Nat
  | .token k n _ leading text, offset =>
    let start := offset + leading.utf8ByteSize
    let stop := start + text.utf8ByteSize
    (.token k n ⟨start, stop⟩ leading text, stop)
  | .branch k n _ cs, offset =>
    let (laid, stop) := layoutAll cs offset
    (.branch k n ((spanOf laid).getD ⟨stop, stop⟩) laid, stop)

/-- The children laid out one after the other, and the offset after the last. -/
def layoutAll : List (Option String × Node) → Nat → List (Option String × Node) × Nat
  | [], offset => ([], offset)
  | (f, n) :: cs, offset =>
    let (laid, next) := n.layout offset
    let (rest, stop) := layoutAll cs next
    ((f, laid) :: rest, stop)

end

end Node

namespace Tree

/-- The tree with the spans that its tokens give. -/
def layout (t : Tree) : Tree :=
  { t with root := (t.root.layout 0).1 }

/-- The tree with `new` at an address, laid out again. -/
def replace (t : Tree) (address : Address) (new : Node) : Option Tree :=
  (t.root.replaceAt address new).map fun root => layout { t with root }

end Tree

end ViewLint
