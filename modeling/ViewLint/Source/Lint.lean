import ViewLint.Fix.All
import ViewLint.Grammar.Source

/-!
# Checking and fixing a source

Both start from the tree of the source. Every text has one, whatever its errors of syntax, so
neither has an exit for a source that cannot be read.

## Main definitions

* `Analyzer.checkSource`: the findings of a source.
* `FixOutcome`: a source after its fixes, with those that were applied and those that were refused.
* `Analyzer.fixSource`: all fixes of a source.
-/

namespace ViewLint

/-- The findings of the source of a file, in the order of its nodes. -/
def Analyzer.checkSource (a : Analyzer) (source file : String) : List Finding :=
  a.detect (Tree.parse source) file

/-- A source after its fixes. -/
structure FixOutcome where
  /-- The text with the fixes. -/
  source : String
  /-- The findings that were fixed, in the order of their fixes. -/
  applied : List Finding
  /-- The fixes that were refused. -/
  failed : List FailedFix

/-- Whether the source was changed: a fix that is applied always changes it. -/
def FixOutcome.isChanged (o : FixOutcome) : Bool :=
  !o.applied.isEmpty

/-- Applies every fix that the source of a file allows. -/
def Analyzer.fixSource (a : Analyzer) (source file : String) : FixOutcome :=
  let (tree, applied, failed) := a.fixTree (Tree.parse source) file
  ⟨tree.text, applied, failed⟩

end ViewLint
