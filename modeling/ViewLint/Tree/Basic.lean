import ViewLint.Tree.Span

/-!
# Lossless trees

A node is a token, which holds its text and the trivia before it, or a branch over a list of
children, each of which may fill a named field of the branch. A tree is a root node with the
trivia after its last token, so every tree renders back to the exact text it stands for.

Nodes are identified by their address: the child indices on the way down from the root.

## Main definitions

* `Node`, `Tree`: nodes, and a root with its trailing trivia.
* `Node.fullText`, `Node.text`: the text of a node with and without the trivia before it.
* `Node.at?`, `Node.replaceAt`: the node at an address, and the tree with another node there.
* `Node.preorder`, `Tree.nodes`: the nodes of a tree, by recursion and by an explicit stack.
-/

namespace ViewLint

/-- A node of a lossless tree. Named nodes are those that the grammar names; the others are
keywords and punctuation. -/
inductive Node where
  | token (kind : String) (named : Bool) (span : Span) (leading text : String)
  | branch (kind : String) (named : Bool) (span : Span) (children : List (Option String × Node))
deriving Repr, Inhabited

/-- A node together with the field of the parent it fills, if any. -/
abbrev Child := Option String × Node

/-- A position in a tree: the indices of the children to descend into. -/
abbrev Address := List Nat

namespace Node

/-- The grammar's name for this kind of node. -/
def kind : Node → String
  | .token k .. => k
  | .branch k .. => k

/-- Whether the grammar names the node. -/
def named : Node → Bool
  | .token _ n .. => n
  | .branch _ n .. => n

/-- The bytes that the node covers, without the trivia before it. -/
def span : Node → Span
  | .token _ _ s .. => s
  | .branch _ _ s _ => s

/-- The children with their fields; a token has none. -/
def children : Node → List Child
  | .token .. => []
  | .branch _ _ _ cs => cs

/-- The text of a token. -/
def tokenText? : Node → Option String
  | .token _ _ _ _ text => some text
  | .branch .. => none

/-- The span from the start of the first child to the stop of the last. -/
def spanOf : List Child → Option Span
  | [] => none
  | c :: cs => some ⟨c.2.span.start, ((c :: cs).getLast (by simp)).2.span.stop⟩

/-- A branch that spans its children; without children it has the empty span at the start of the
text. -/
def ofChildren (kind : String) (children : List Child) (named : Bool) : Node :=
  .branch kind named ((spanOf children).getD ⟨0, 0⟩) children

/-- The named children, comments left out. -/
def significant (n : Node) : List Node :=
  (n.children.map (·.2)).filter fun c => c.named && c.kind != "comment"

/-- The first child that fills a field. -/
def field? (n : Node) (name : String) : Option Node :=
  (n.children.find? fun c => c.1 == some name).map (·.2)

/-! ### Text -/

mutual

/-- The text of a node with the trivia before it. -/
def fullText : Node → String
  | .token _ _ _ leading text => leading ++ text
  | .branch _ _ _ cs => fullTexts cs

/-- The texts of children, one after the other. -/
def fullTexts : List (Option String × Node) → String
  | [] => ""
  | (_, n) :: cs => n.fullText ++ fullTexts cs

end

mutual

/-- The text of a node without the trivia before its first child. -/
def text : Node → String
  | .token _ _ _ _ text => text
  | .branch _ _ _ cs => textOfFirst cs

/-- The texts of children, without the trivia before the first. -/
def textOfFirst : List (Option String × Node) → String
  | [] => ""
  | (_, n) :: cs => n.text ++ fullTexts cs

end

/-- The identifier of a simple name: of `Select` and of `Select<A, B>` it is `Select`. -/
def simpleName? (n : Node) : Option String :=
  if n.kind = "identifier" then some n.text
  else if n.kind = "generic_name" then
    (n.children.find? fun c => c.2.kind == "identifier").map (·.2.text)
  else none

/-! ### Addresses -/

/-- The node at an address, if the address stays inside the tree. -/
def at? (n : Node) : Address → Option Node
  | [] => some n
  | i :: rest => n.children[i]?.bind fun c => c.2.at? rest

mutual

/-- The node with `new` at an address below it. The field of the place stays; an address outside
the tree gives nothing. -/
def replaceAt : Node → Address → Node → Option Node
  | _, [], new => some new
  | .token .., _ :: _, _ => none
  | .branch k n s cs, i :: rest, new => (replaceIn cs i rest new).map (.branch k n s)

/-- The children with `new` at an address below the child with index `i`. -/
def replaceIn :
    List (Option String × Node) → Nat → Address → Node → Option (List (Option String × Node))
  | [], _, _, _ => none
  | (f, c) :: cs, 0, rest, new => (c.replaceAt rest new).map fun c' => (f, c') :: cs
  | c :: cs, i + 1, rest, new => (replaceIn cs i rest new).map (c :: ·)

end

/-! ### Traversal -/

mutual

/-- The number of nodes. -/
def size : Node → Nat
  | .token .. => 1
  | .branch _ _ _ cs => 1 + sizes cs

/-- The number of nodes of all children. -/
def sizes : List (Option String × Node) → Nat
  | [] => 0
  | (_, n) :: cs => n.size + sizes cs

end

mutual

/-- The node and all nodes below it, each before its children. -/
def preorder : Node → List Node
  | .token k n s l t => [.token k n s l t]
  | .branch k n s cs => .branch k n s cs :: preorders cs

/-- The nodes of all children, in order. -/
def preorders : List (Option String × Node) → List Node
  | [] => []
  | (_, n) :: cs => n.preorder ++ preorders cs

end

/-- The number of nodes on a stack and below them. -/
def stackSize : List Node → Nat
  | [] => 0
  | n :: ns => n.size + stackSize ns

theorem stackSize_append (a b : List Node) : stackSize (a ++ b) = stackSize a + stackSize b := by
  induction a with
  | nil => simp [stackSize]
  | cons n ns ih => simp [stackSize, ih]; omega

theorem stackSize_children : ∀ cs : List Child, stackSize (cs.map (·.2)) = sizes cs
  | [] => rfl
  | (_, n) :: cs => by simp [stackSize, sizes, stackSize_children cs]

theorem size_eq_succ (n : Node) : n.size = 1 + stackSize (n.children.map (·.2)) := by
  cases n with
  | token => simp [size, children, stackSize]
  | branch k nm s cs => rw [stackSize_children]; rfl

/-- The nodes below a stack of pending nodes: take the top node, put its children in its place
with the first on top, and go on. -/
def walk : List Node → List Node
  | [] => []
  | n :: rest => n :: walk (n.children.map (·.2) ++ rest)
termination_by stack => stackSize stack
decreasing_by
  have := size_eq_succ n
  simp only [stackSize_append, stackSize]
  omega

end Node

/-- A root node, the trivia after its last token, and whether the text has syntax errors. -/
structure Tree where
  root : Node
  trailing : String
  hasErrors : Bool
deriving Repr, Inhabited

namespace Tree

/-- The text that a tree stands for. -/
def text (t : Tree) : String :=
  t.root.fullText ++ t.trailing

/-- All nodes of a tree, each before its children. -/
def nodes (t : Tree) : List Node :=
  Node.walk [t.root]

end Tree

end ViewLint
