import ViewLint.Finding.Basic
import ViewLint.Pieces
import ViewLint.Rule.Detector
import ViewLint.Text.Position

/-!
# Findings of a tree

The detector visits every node of a tree, each before its children, and reports one finding for
each node that matches.

## Main definitions

* `Analyzer`: the settings of the rule and the model it consults.
* `Analyzer.visit`: the finding for one node.
* `Analyzer.detect`: the findings of a tree.
* `Analyzer.detectPieces`: the same for a list of nodes that was cut into pieces.
-/

namespace ViewLint

/-- What it takes to judge a node: the settings of the rule and the model of the project. -/
structure Analyzer where
  settings : Settings
  model : Model

namespace Analyzer

/-- The finding for a node of a file with the given line index. -/
def visit (a : Analyzer) (file : String) (index : Text.LineIndex) (node : Node) :
    Option Finding :=
  (a.settings.match? a.model node).map fun found =>
    { ruleId := dictionaryViewRule.id
      ruleName := dictionaryViewRule.name
      category := dictionaryViewRule.category
      severity := Finding.severityLevel
      message := Finding.advice found.view found.component
      file
      line := index.line node.span.start
      column := index.column node.span.start
      span := node.span
      view := found.view
      messageArgs := [found.component] }

/-- The findings of a tree, in the order of its nodes. -/
def detect (a : Analyzer) (t : Tree) (file : String) : List Finding :=
  let index := Text.LineIndex.ofSource t.text
  t.nodes.filterMap (a.visit file index)

/-- The findings of the nodes in consecutive pieces, each piece on its own, joined in order. -/
def detectPieces (a : Analyzer) (file : String) (index : Text.LineIndex)
    (pieces : List (List Node)) : List Finding :=
  (pieces.map fun piece => piece.filterMap (a.visit file index)).flatten

/-- The findings of a tree whose nodes are judged in pieces of `size`. -/
def detectInPieces (a : Analyzer) (size : Nat) (t : Tree) (file : String) : List Finding :=
  a.detectPieces file (Text.LineIndex.ofSource t.text) (piecesOf size t.nodes)

end Analyzer

end ViewLint
