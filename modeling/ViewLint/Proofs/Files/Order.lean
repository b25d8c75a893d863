import ViewLint.Files.Search

/-!
# The order of collected files

Paths are ordered by their components, and the paths of some roots are sorted in this order and
then freed of repetitions. Two paths are equal in the order exactly if they have the same
components, so the files that are collected are strictly increasing.

## Main definitions

* `Path.Before`: the strict order of paths.

## Main results

* `Path.compareComponents_eq`: components are compared as in a dictionary.
* `dropRepeated_pairwise`: without repetitions, sorted paths are strictly increasing.
* `FileSystem.collectFiles_pairwise`: so are the collected files.
-/

namespace ViewLint

open Std

namespace Path

/-- The text by which components of the same rank are compared. -/
def Component.label : Component → String
  | .name text => text
  | _ => ""

theorem Component.compare_eq :
    Component.compare = compareLex (compareOn Component.rank) (compareOn Component.label) := by
  funext a b
  cases a <;> cases b <;> rfl

instance : TransCmp Component.compare := by
  rw [Component.compare_eq]
  infer_instance

instance : LawfulEqCmp Component.compare where
  eq_of_compare {a b} h := by
    cases a with
    | name text =>
      cases b with
      | name text' =>
        have heq : Ord.compare text text' = .eq := h
        exact congrArg Component.name (LawfulEqCmp.eq_of_compare heq)
      | _ => cases h
    | _ => cases b <;> first | rfl | cases h

theorem compareComponents_eq : compareComponents = List.compareLex Component.compare := by
  funext as bs
  induction as generalizing bs with
  | nil => cases bs <;> rfl
  | cons a as ih =>
    cases bs with
    | nil => rfl
    | cons b bs => rw [compareComponents, ih, List.compareLex_cons_cons]

instance : TransCmp compareComponents := by
  rw [compareComponents_eq]
  infer_instance

instance : LawfulEqCmp compareComponents := by
  rw [compareComponents_eq]
  infer_instance

/-- The strict order of paths by their components. -/
def Before (a b : String) : Prop :=
  Path.compare a b = .lt

instance : TransCmp Path.compare where
  eq_swap {a b} := by
    rw [Path.compare, Path.compare]
    exact OrientedCmp.eq_swap
  isLE_trans {a b c} := by
    rw [Path.compare, Path.compare, Path.compare]
    exact TransCmp.isLE_trans

theorem isBefore_trans (a b c : String) (hab : isBefore a b = true) (hbc : isBefore b c = true) :
    isBefore a c = true := by
  rw [isBefore] at hab hbc ⊢
  exact TransCmp.isLE_trans hab hbc

theorem isBefore_total (a b : String) : (isBefore a b || isBefore b a) = true := by
  have hswap : Path.compare a b = (Path.compare b a).swap := OrientedCmp.eq_swap
  rw [isBefore, isBefore, hswap]
  cases Path.compare b a <;> rfl

/-- Of two paths in order the first is strictly before the second, unless they have the same
components. -/
theorem before_of_isBefore {a b : String} (h : isBefore a b = true)
    (hne : components b ≠ components a) : Before a b := by
  rcases Ordering.isLE_iff_eq_lt_or_eq_eq.mp h with hlt | heq
  · exact hlt
  · rw [Path.compare] at heq
    exact absurd (LawfulEqCmp.eq_of_compare heq).symm hne

end Path

/-! ### Without repetitions -/

/-- What is kept after a path is strictly after it, and strictly increasing. -/
theorem dropRepeated_go_pairwise {path : String} {rest : List String}
    (h : (path :: rest).Pairwise fun a b => Path.isBefore a b = true) :
    (path :: dropRepeated.go (Path.components path) rest).Pairwise Path.Before := by
  induction rest generalizing path with
  | nil => simp [dropRepeated.go]
  | cons next rest ih =>
    rw [dropRepeated.go]
    have hrest : (path :: rest).Pairwise fun a b => Path.isBefore a b = true :=
      h.sublist ((List.sublist_cons_self next rest).cons_cons path)
    split
    next => exact ih hrest
    next hne =>
      have hnext : Path.Before path next :=
        Path.before_of_isBefore (List.rel_of_pairwise_cons h List.mem_cons_self) hne
      have hkept := ih h.of_cons
      refine List.pairwise_cons.mpr ⟨fun later hlater => ?_, hkept⟩
      rcases List.mem_cons.mp hlater with rfl | hlater
      · exact hnext
      · exact TransCmp.lt_trans hnext (List.rel_of_pairwise_cons hkept hlater)

/-- Sorted paths without repetitions are strictly increasing. -/
theorem dropRepeated_pairwise {paths : List String}
    (h : paths.Pairwise fun a b => Path.isBefore a b = true) :
    (dropRepeated paths).Pairwise Path.Before := by
  cases paths with
  | nil => exact .nil
  | cons path rest => exact dropRepeated_go_pairwise h

/-- Paths with different components are strictly increasing after they were sorted. -/
theorem mergeSort_pairwise {paths : List String}
    (h : paths.Pairwise fun a b => Path.components a ≠ Path.components b) :
    (paths.mergeSort Path.isBefore).Pairwise Path.Before := by
  have hsorted := List.pairwise_mergeSort Path.isBefore_trans Path.isBefore_total paths
  have hdistinct : (paths.mergeSort Path.isBefore).Pairwise fun a b =>
      Path.components a ≠ Path.components b :=
    (List.mergeSort_perm paths Path.isBefore).symm.pairwise h fun hne => Ne.symm hne
  exact (hsorted.and hdistinct).imp fun ⟨hle, hne⟩ => Path.before_of_isBefore hle hne.symm

/-- The files that are collected are strictly increasing. -/
theorem FileSystem.collectFiles_pairwise (fs : FileSystem) (excluded roots : List String) :
    (fs.collectFiles excluded roots).Pairwise Path.Before :=
  dropRepeated_pairwise (List.pairwise_mergeSort Path.isBefore_trans Path.isBefore_total _)

/-- Files that are found in order and without repetitions are collected as they are. -/
theorem FileSystem.collectFiles_eq (fs : FileSystem) (excluded : List String)
    {roots paths : List String} (hroots : roots ≠ [])
    (hfound : roots.flatMap (fs.sourceFiles excluded) = paths)
    (hsorted : paths.Pairwise fun a b => Path.isBefore a b = true)
    (hdistinct : dropRepeated paths = paths) : fs.collectFiles excluded roots = paths := by
  rw [collectFiles, if_neg (by simpa using hroots), hfound, List.mergeSort_of_pairwise hsorted,
    hdistinct]

end ViewLint
