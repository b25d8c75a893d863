import ViewLint.Tree.Basic

/-!
# Concrete syntax trees

A reader of source text reports a concrete syntax tree: its leaves are ranges of bytes, and what
lies between them is trivia. Cutting the source at the leaves turns such a tree into a lossless
one, whatever the ranges are: a leaf that would start before the end of the leaf before it is cut
short.

## Main definitions

* `Concrete`: a tree whose leaves are byte ranges.
* `sliceBytes`: the text of a byte range.
* `Concrete.toNode`, `Tree.ofConcrete`: the lossless tree.
* `Concrete.weave`: a tree with comments and directives put where they stand.
-/

namespace ViewLint

/-- A syntax tree whose leaves are byte ranges of a source. -/
inductive Concrete where
  | leaf (kind : String) (named : Bool) (start stop : Nat)
  | node (kind : String) (named : Bool) (children : List (Option String × Concrete))
deriving Repr, Inhabited

/-- The text between two byte offsets; nothing where these are no offsets of characters in order. -/
def sliceBytes (s : String) (start stop : Nat) : String :=
  if start ≤ stop ∧ stop ≤ s.utf8ByteSize then
    (String.fromUTF8? (s.toUTF8.extract start stop)).getD ""
  else ""

namespace Concrete

/-- A tree together with the field of the node above that it fills, if any. -/
abbrev Child := Option String × Concrete

/-! ### Ranges -/

mutual

/-- The offset at which the first leaf starts. -/
def start? : Concrete → Option Nat
  | .leaf _ _ start _ => some start
  | .node _ _ cs => startOf? cs

/-- The offset at which the first leaf of some children starts. -/
def startOf? : List (Option String × Concrete) → Option Nat
  | [] => none
  | (_, c) :: cs => (c.start?).or (startOf? cs)

end

mutual

/-- The offset at which the last leaf stops. -/
def stop? : Concrete → Option Nat
  | .leaf _ _ _ stop => some stop
  | .node _ _ cs => stopOf? cs

/-- The offset at which the last leaf of some children stops. -/
def stopOf? : List (Option String × Concrete) → Option Nat
  | [] => none
  | (_, c) :: cs => (stopOf? cs).or c.stop?

end

/-! ### Lossless trees -/

mutual

/-- The lossless node of a concrete one, when the source up to `offset` is used up, and the offset
up to which it is used up then. A leaf takes the bytes before it as its trivia; a node without
children is a leaf without bytes. -/
def toNode (source : String) : Concrete → Nat → Node × Nat
  | .leaf kind named start stop, offset =>
    let start := max start offset
    let stop := max stop start
    (.token kind named ⟨start, stop⟩ (sliceBytes source offset start)
      (sliceBytes source start stop), stop)
  | .node kind named cs, offset =>
    if cs.isEmpty then (.token kind named ⟨offset, offset⟩ "" "", offset)
    else
      let (children, stop) := toNodes source cs offset
      (Node.ofChildren kind children named, stop)

/-- The lossless nodes of children. -/
def toNodes (source : String) :
    List (Option String × Concrete) → Nat → List (Option String × Node) × Nat
  | [], offset => ([], offset)
  | (f, c) :: cs, offset =>
    let (n, next) := c.toNode source offset
    let (ns, stop) := toNodes source cs next
    ((f, n) :: ns, stop)

end

/-! ### Weaving -/

/-- The trees of a list that start before an offset, and the others. Both keep their order. -/
def splitBefore (offset : Nat) (extras : List Concrete) : List Concrete × List Concrete :=
  extras.partition fun e => decide (e.start?.getD 0 < offset)

mutual

/-- A tree with the given comments and directives, which all start inside of it, put at the place
where each stands: among the children of the innermost node that has leaves on both sides. -/
def weave : Concrete → List Concrete → Concrete
  | .leaf kind named start stop, _ => .leaf kind named start stop
  | .node kind named cs, extras => .node kind named (weaveAll cs extras)

/-- Children with comments and directives put before, inside and after them. -/
def weaveAll : List (Option String × Concrete) → List Concrete → List (Option String × Concrete)
  | [], extras => extras.map fun e => (none, e)
  | (f, c) :: cs, extras =>
    let (before, rest) := splitBefore (c.start?.getD 0) extras
    let (inside, after) := splitBefore (c.stop?.getD 0) rest
    before.map (fun e => (none, e)) ++ (f, c.weave inside) :: weaveAll cs after

end

end Concrete

/-- The lossless tree of a concrete tree over a source. What follows the last leaf is the trailing
trivia. -/
def Tree.ofConcrete (source : String) (c : Concrete) (hasErrors : Bool) : Tree :=
  let (root, stop) := c.toNode source 0
  ⟨root, sliceBytes source stop source.utf8ByteSize, hasErrors⟩

end ViewLint
