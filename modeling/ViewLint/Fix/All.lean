import ViewLint.Finding.Detect
import ViewLint.Fix.Basic

/-!
# Fixing all findings

Fixes are applied one at a time, from the end of the file backwards, and the tree is searched anew
after each. A finding whose fix is refused is remembered by its span and view and passed over from
then on; its span moves with the text that later fixes change.

## Main definitions

* `shiftAfter`: where a span stands after an edit.
* `FailedFix`: a finding whose fix was refused.
* `Analyzer.nextFinding?`: the finding to handle next.
* `Analyzer.fixTree`: the tree after all fixes, with what was applied and what was refused.
-/

namespace ViewLint

/-- A finding whose fix was refused, and why. -/
structure FailedFix where
  finding : Finding
  error : String
deriving DecidableEq, Repr, Inhabited

/-- A span after an edit that ends at `editStop`: offsets from there on move by the change of the
length of the text. -/
def shiftAfter (span : Span) (editStop oldLength newLength : Nat) : Span :=
  let shift (offset : Nat) : Nat :=
    if editStop ≤ offset then offset + newLength - oldLength else offset
  ⟨shift span.start, shift span.stop⟩

/-- The last of the findings that start furthest to the right. -/
def rightmost? (findings : List Finding) : Option Finding :=
  findings.foldl
    (fun best f =>
      match best with
      | none => some f
      | some b => if b.span.start ≤ f.span.start then some f else some b)
    none

/-- The state of a fixing run: the tree, the findings handled so far, newest first, and the
refused spans and views. -/
structure FixState where
  tree : Tree
  applied : List Finding
  failed : List FailedFix
  rejected : List (Span × View)

namespace Analyzer

/-- The rightmost finding that was not refused before. -/
def nextFinding? (a : Analyzer) (file : String) (st : FixState) : Option Finding :=
  rightmost? ((a.detect st.tree file).filter fun f => !st.rejected.contains (f.span, f.view))

/-- The state after a finding was handled. -/
def handle (st : FixState) (f : Finding) : FixState :=
  match st.tree.fix f with
  | .ok fixed =>
    let moved := st.rejected.map fun (span, view) =>
      (shiftAfter span f.span.stop st.tree.root.span.stop fixed.root.span.stop, view)
    { st with tree := fixed, applied := f :: st.applied, rejected := moved }
  | .error e =>
    { st with
      failed := ⟨f, e.message⟩ :: st.failed
      rejected := (f.span, f.view) :: st.rejected }

/-- The state after at most `limit` more findings were handled. -/
def fixLoop (a : Analyzer) (file : String) : Nat → FixState → FixState
  | 0, st => st
  | limit + 1, st =>
    match a.nextFinding? file st with
    | none => st
    | some f => fixLoop a file limit (handle st f)

/-- The number of findings that one run handles in a file at most. -/
def maxFixesPerFile : Nat :=
  10000

/-- The tree after all fixes, the findings that were fixed, and those whose fix was refused, both
in the order in which they were handled. -/
def fixTree (a : Analyzer) (t : Tree) (file : String) : Tree × List Finding × List FailedFix :=
  let st := a.fixLoop file maxFixesPerFile ⟨t, [], [], []⟩
  (st.tree, st.applied.reverse, st.failed.reverse)

end Analyzer

end ViewLint
