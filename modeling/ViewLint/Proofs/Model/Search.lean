import Mathlib.Logic.Function.Iterate
import ViewLint.Proofs.Model.Additions

/-!
# The search for interfaces as a loop

The search for the interfaces of a type takes one interface at a time from a stack, and puts its
direct interfaces on the stack if it was not listed before. The declarations stay the same all the
while, and may lead back to where they came from, so the same interface can be put on the stack many
times. Still the loop ends: the direct interfaces of a type go on the stack only when the type is
listed, which happens once, or when the search starts from it. What the loop has listed in the end
is the transitive closure of the declarations.

## Main definitions

* `Model.searchStep`, `Model.search`: one step of the loop, and a number of steps.
* `Model.declared`: the number of interfaces in some declarations.

## Main results

* `Model.declared_without_add`: taking an interface from the stack uses up its declarations.
* `Model.iterate_searchStep`: the loop lists what the search lists, in a bounded number of steps.
* `Model.allInterfaces_closure`: the interfaces of a type are the transitive closure.
-/

namespace ViewLint

namespace Model

open Relation

variable {all declarations : List (QualifiedName × List QualifiedName)}
  {self q : QualifiedName} {seen listed pending : List QualifiedName}

/-- One step of the search for the interfaces of `self`: the uppermost interface on the stack is
passed over if it is `self` or was listed, and else it is listed, and its direct interfaces go on
top of the stack. -/
def searchStep (declarations : List (QualifiedName × List QualifiedName)) (self : QualifiedName) :
    List QualifiedName × List QualifiedName → List QualifiedName × List QualifiedName
  | (listed, []) => (listed, [])
  | (listed, q :: rest) =>
    if q = self ∨ q ∈ listed then (listed, rest)
    else (listed ++ [q], (direct declarations q).reverse ++ rest)

/-- What is listed, and what is left on the stack, after a number of steps of the search for the
interfaces of a type. -/
def search (m : Model) (type : QualifiedName) (steps : Nat) :
    List QualifiedName × List QualifiedName :=
  (searchStep m.declarations type)^[steps] ([], (direct m.declarations type).reverse)

/-- The number of interfaces in some declarations, repetitions included. -/
def declared (declarations : List (QualifiedName × List QualifiedName)) : Nat :=
  (declarations.flatMap (·.2)).length

/-! ### The number of steps -/

theorem direct_cons (d : QualifiedName × List QualifiedName)
    (declarations : List (QualifiedName × List QualifiedName)) (type : QualifiedName) :
    direct (d :: declarations) type =
      (if d.1 = type then d.2 else []) ++ direct declarations type :=
  List.flatMap_cons

theorem without_cons (d : QualifiedName × List QualifiedName)
    (declarations : List (QualifiedName × List QualifiedName)) (type : QualifiedName) :
    without (d :: declarations) type =
      if d.1 = type then without declarations type else d :: without declarations type := by
  by_cases h : d.1 = type <;> simp [without, h]

theorem declared_cons (d : QualifiedName × List QualifiedName)
    (declarations : List (QualifiedName × List QualifiedName)) :
    declared (d :: declarations) = d.2.length + declared declarations := by
  rw [declared, List.flatMap_cons, List.length_append, declared]

/-- The interfaces of a type and those in the other declarations are all that are declared. -/
theorem declared_without_add (declarations : List (QualifiedName × List QualifiedName))
    (type : QualifiedName) :
    declared (without declarations type) + (direct declarations type).length =
      declared declarations := by
  induction declarations with
  | nil => rfl
  | cons d declarations ih =>
    rw [without_cons, direct_cons, declared_cons, List.length_append, ← ih]
    by_cases h : d.1 = type
    · rw [if_pos h, if_pos h]
      omega
    · rw [if_neg h, if_neg h, declared_cons, List.length_nil]
      omega

/-- Dropping the declarations of a type keeps the interfaces of another one, and their order. -/
theorem direct_without {type : QualifiedName} (h : q ≠ type) :
    direct (without declarations type) q = direct declarations q := by
  induction declarations with
  | nil => rfl
  | cons d declarations ih =>
    rw [without_cons, direct_cons]
    by_cases hd : d.1 = type
    · rw [if_pos hd, if_neg (hd ▸ h.symm), ih, List.nil_append]
    · rw [if_neg hd, direct_cons, ih]

theorem iterate_searchStep_nil (k : Nat) :
    (searchStep all self)^[k] (listed, []) = (listed, []) :=
  Function.iterate_fixed rfl k

/-- The loop lists what the search lists. The search has dropped the declarations of what was
listed, which the loop keeps, but the loop will not ask for them again. One step takes one interface
from the stack, and puts on it only what is dropped from the declarations. -/
theorem iterate_searchStep {k : Nat} (hseen : ∀ q, q ∈ seen ↔ q ∈ listed)
    (hdirect : ∀ q, q ∉ seen → direct declarations q = direct all q)
    (hk : pending.length + declared declarations ≤ k) :
    (searchStep all self)^[k] (listed, pending) =
      (listed ++ closure self declarations seen pending, []) := by
  fun_induction closure self declarations seen pending generalizing listed k with
  | case1 declarations seen => rw [iterate_searchStep_nil, List.append_nil]
  | case2 declarations seen q rest hold ih =>
    obtain ⟨k, rfl⟩ : ∃ k', k = k' + 1 := ⟨k - 1, by rw [List.length_cons] at hk; omega⟩
    have hstep : searchStep all self (listed, q :: rest) = (listed, rest) := by
      rw [searchStep, if_pos (by rwa [← hseen])]
    rw [Function.iterate_succ_apply, hstep]
    exact ih hseen hdirect (by rw [List.length_cons] at hk; omega)
  | case3 declarations seen q rest hnew ih =>
    obtain ⟨k, rfl⟩ : ∃ k', k = k' + 1 := ⟨k - 1, by rw [List.length_cons] at hk; omega⟩
    have hfresh : q ∉ seen := fun h => hnew (.inr h)
    have hstep : searchStep all self (listed, q :: rest) =
        (listed ++ [q], (direct declarations q).reverse ++ rest) := by
      rw [searchStep, if_neg (by rwa [← hseen]), hdirect q hfresh]
    have hcount := declared_without_add declarations q
    rw [Function.iterate_succ_apply, hstep, ih, List.append_assoc, List.singleton_append]
    · intro p
      rw [List.mem_cons, List.mem_append, List.mem_singleton, hseen, or_comm]
    · intro p hp
      obtain ⟨hne, hp⟩ := not_or.mp (mt List.mem_cons.mpr hp)
      rw [direct_without hne, hdirect p hp]
    · rw [List.length_append, List.length_reverse]
      rw [List.length_cons] at hk
      omega

/-- The search ends, and has listed the interfaces of the type, after as many steps as the type has
direct interfaces and interfaces are declared. -/
theorem search_eq_allInterfaces (m : Model) (type : QualifiedName) {steps : Nat}
    (h : (direct m.declarations type).length + declared m.declarations ≤ steps) :
    m.search type steps = (m.allInterfaces type, []) := by
  have hrun : (searchStep m.declarations type)^[steps] ([], (direct m.declarations type).reverse) =
      ([] ++ closure type m.declarations [] (direct m.declarations type).reverse, []) :=
    iterate_searchStep (fun _ => Iff.rfl) (fun _ _ => rfl) (by rwa [List.length_reverse])
  rw [search, hrun, List.nil_append, allInterfaces]

-- Two interfaces that implement each other, one of them itself too.
example : (empty.addAll [.interfaces ⟨"App", "IA"⟩ [⟨"App", "IB"⟩, ⟨"App", "IA"⟩],
    .interfaces ⟨"App", "IB"⟩ [⟨"App", "IA"⟩, ⟨"App", "IB"⟩]]).search ⟨"App", "IA"⟩ 4 =
      ([⟨"App", "IB"⟩], []) := by
  decide

/-! ### The transitive closure -/

theorem not_implements_empty (type interface : QualifiedName) :
    ¬ empty.Implements type interface :=
  List.not_mem_nil

/-- In a model made by some additions, the direct interfaces of a type are those that the additions
declare. -/
theorem implements_of_additions (additions : List Addition) :
    (empty.addAll additions).Implements =
      fun type interface => ∃ a ∈ additions, a.Declares type interface := by
  ext type interface
  rw [implements_addAll_iff, or_iff_right (not_implements_empty type interface)]

/-- **The interfaces of a type are the transitive closure of the declarations.** Take a model made
by any sequence of additions, with declarations that may repeat each other and lead back to where
they came from. The loop that searches for the interfaces of a type has nothing left on its stack
after a number of steps that the declarations bound, and stays so. What it has listed has no
repetitions, is without the type itself, and otherwise holds what the type is led to in one or more
steps. So a type implements one of some capabilities if and only if it is led to one in any number
of steps, none included. -/
theorem allInterfaces_closure (additions : List Addition) (type : QualifiedName) :
    let m := empty.addAll additions
    let Declared (p q : QualifiedName) := ∃ a ∈ additions, a.Declares p q
    (∀ more, m.search type ((direct m.declarations type).length + declared m.declarations + more) =
        (m.allInterfaces type, [])) ∧
      (m.allInterfaces type).Nodup ∧ type ∉ m.allInterfaces type ∧
      (∀ q, q ∈ m.allInterfaces type ↔ q ≠ type ∧ TransGen Declared type q) ∧
      ∀ capabilities, m.implementsAny type capabilities = true ↔
        ∃ c ∈ capabilities, ReflTransGen Declared type c := by
  intro m Declared
  have himplements : m.Implements = Declared := implements_of_additions additions
  refine ⟨fun more => search_eq_allInterfaces m type (Nat.le_add_right _ more),
    m.nodup_allInterfaces type, ?_, ?_, ?_⟩
  · exact fun h => (mem_allInterfaces_iff.mp h).1 rfl
  · intro q
    rw [mem_allInterfaces_iff, himplements]
  · intro capabilities
    rw [implementsAny_iff, himplements]

end Model

end ViewLint
