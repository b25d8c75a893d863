import ViewLint.Tree.Basic

/-!
# Finding a node by its span

The search descends from the root into the first child whose span contains the wanted one, until
it meets a node with exactly that span. It never turns back, so of several nodes with the span it
finds the outermost.
-/

namespace ViewLint

namespace Node

mutual

/-- The address below this node of the outermost node with span `s`, by greedy descent. -/
def locate (s : Span) : Node → Option Address
  | .token _ _ own _ _ => if own = s then some [] else none
  | .branch _ _ own cs => if own = s then some [] else locateIn s 0 cs

/-- The descent into the first child that contains `s`; the first child here has index `i`. -/
def locateIn (s : Span) : Nat → List (Option String × Node) → Option Address
  | _, [] => none
  | i, (_, c) :: cs =>
    if c.span.contains s then (c.locate s).map (i :: ·) else locateIn s (i + 1) cs

end

end Node

namespace Tree

/-- The address of the outermost node with span `s`. -/
def locate (t : Tree) (s : Span) : Option Address :=
  if t.root.span.contains s then t.root.locate s else none

/-- The outermost node with span `s`. -/
def find? (t : Tree) (s : Span) : Option Node :=
  (t.locate s).bind t.root.at?

end Tree

end ViewLint
