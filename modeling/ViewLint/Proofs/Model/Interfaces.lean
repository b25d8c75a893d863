import Mathlib.Logic.Relation
import ViewLint.Model.Basic

/-!
# The interfaces of a type

The search for the interfaces of a type takes them from a stack, in an order that depends on the
order of the declarations. What it finds does not: the interfaces listed are those to which a chain
of declarations leads from the type, each once, and the type itself is not among them.

## Main definitions

* `Model.Implements`: the direct interfaces of a type, as a relation.

## Main results

* `Model.nodup_allInterfaces`: no interface is listed twice.
* `Model.mem_allInterfaces_iff`: the interfaces listed are those that declarations lead to.
* `Model.implementsAny_iff`: a type implements a capability if it is led to one in any number of
  steps, or is one.
-/

namespace ViewLint

namespace Model

open Relation

/-- One of the declarations gives the type `type` the direct interface `interface`. -/
def Implements (m : Model) (type interface : QualifiedName) : Prop :=
  interface ∈ direct m.declarations type

variable {declarations : List (QualifiedName × List QualifiedName)} {type q r : QualifiedName}

theorem mem_direct_iff :
    q ∈ direct declarations type ↔
      ∃ interfaces, (type, interfaces) ∈ declarations ∧ q ∈ interfaces := by
  simp only [direct, List.mem_flatMap, Prod.exists]
  constructor
  · rintro ⟨owner, interfaces, hd, hq⟩
    split at hq
    next h => exact ⟨interfaces, h ▸ hd, hq⟩
    next => simp at hq
  · rintro ⟨interfaces, hd, hq⟩
    exact ⟨type, interfaces, hd, by simpa using hq⟩

/-- Dropping the declarations of a type keeps the interfaces of the others. -/
theorem mem_direct_without_iff :
    q ∈ direct (without declarations type) r ↔ r ≠ type ∧ q ∈ direct declarations r := by
  simp only [mem_direct_iff, without, List.mem_filter, decide_eq_true_eq]
  constructor
  · rintro ⟨interfaces, ⟨hd, hne⟩, hq⟩
    exact ⟨hne, interfaces, hd, hq⟩
  · rintro ⟨hne, interfaces, hd, hq⟩
    exact ⟨interfaces, ⟨hd, hne⟩, hq⟩

/-! ### What the search lists -/

section Search

variable {self : QualifiedName} {seen pending : List QualifiedName}

/-- Nothing that was listed before is listed again, and the type itself is never listed. -/
theorem fresh_of_mem_closure (h : q ∈ closure self declarations seen pending) :
    q ≠ self ∧ q ∉ seen := by
  fun_induction closure self declarations seen pending with
  | case1 => simp at h
  | case2 declarations seen p rest hold ih => exact ih h
  | case3 declarations seen p rest hnew ih =>
    rcases List.mem_cons.mp h with rfl | h
    · exact not_or.mp hnew
    · exact ⟨(ih h).1, fun hseen => (ih h).2 (List.mem_cons_of_mem p hseen)⟩

theorem nodup_closure (self : QualifiedName)
    (declarations : List (QualifiedName × List QualifiedName)) (seen pending : List QualifiedName) :
    (closure self declarations seen pending).Nodup := by
  fun_induction closure self declarations seen pending with
  | case1 => exact List.nodup_nil
  | case2 declarations seen p rest hold ih => exact ih
  | case3 declarations seen p rest hnew ih =>
    exact List.nodup_cons.mpr ⟨fun h => (fresh_of_mem_closure h).2 List.mem_cons_self, ih⟩

/-- Declarations lead from something on the stack to whatever is listed. -/
theorem exists_chain_of_mem_closure (h : q ∈ closure self declarations seen pending) :
    ∃ p ∈ pending, ReflTransGen (fun p q => q ∈ direct declarations p) p q := by
  fun_induction closure self declarations seen pending with
  | case1 => simp at h
  | case2 declarations seen p rest hold ih =>
    obtain ⟨p', hp', hchain⟩ := ih h
    exact ⟨p', List.mem_cons_of_mem p hp', hchain⟩
  | case3 declarations seen p rest hnew ih =>
    rcases List.mem_cons.mp h with rfl | h
    · exact ⟨q, List.mem_cons_self, .refl⟩
    · obtain ⟨p', hp', hchain⟩ := ih h
      -- The search goes on with fewer declarations, so the chain is one of the old ones too.
      have hchain : ReflTransGen (fun p q => q ∈ direct declarations p) p' q :=
        ReflTransGen.mono (fun a b hab => (mem_direct_without_iff.mp hab).2) _ _ hchain
      rcases List.mem_append.mp hp' with hp' | hp'
      · exact ⟨p, List.mem_cons_self, .head (List.mem_reverse.mp hp') hchain⟩
      · exact ⟨p', List.mem_cons_of_mem p hp', hchain⟩

/-- An interface taken from the stack counts as listed before for the rest of the search, and is
listed now for the search as a whole. -/
theorem listed_of_taken {p : QualifiedName} {listed : List QualifiedName}
    (h : q = self ∨ q ∈ p :: seen ∨ q ∈ listed) : q = self ∨ q ∈ seen ∨ q ∈ p :: listed := by
  rcases h with hself | hseen | hlisted
  · exact .inl hself
  · rcases List.mem_cons.mp hseen with rfl | hseen
    · exact .inr (.inr List.mem_cons_self)
    · exact .inr (.inl hseen)
  · exact .inr (.inr (List.mem_cons_of_mem p hlisted))

/-- Whatever is on the stack is listed, now or before. -/
theorem mem_closure_of_mem_pending (h : q ∈ pending) :
    q = self ∨ q ∈ seen ∨ q ∈ closure self declarations seen pending := by
  fun_induction closure self declarations seen pending with
  | case1 => simp at h
  | case2 declarations seen p rest hold ih =>
    rcases List.mem_cons.mp h with rfl | h
    · exact hold.imp_right .inl
    · exact ih h
  | case3 declarations seen p rest hnew ih =>
    rcases List.mem_cons.mp h with rfl | h
    · exact .inr (.inr List.mem_cons_self)
    · exact listed_of_taken (ih (List.mem_append_right _ h))

/-- With an interface its own direct interfaces are listed, now or before. -/
theorem mem_closure_of_mem_direct (h : q ∈ closure self declarations seen pending)
    (hr : r ∈ direct declarations q) :
    r = self ∨ r ∈ seen ∨ r ∈ closure self declarations seen pending := by
  fun_induction closure self declarations seen pending with
  | case1 => simp at h
  | case2 declarations seen p rest hold ih => exact ih h hr
  | case3 declarations seen p rest hnew ih =>
    have hnext : r = self ∨ r ∈ p :: seen ∨ r ∈ closure self (without declarations p) (p :: seen)
        ((direct declarations p).reverse ++ rest) := by
      rcases List.mem_cons.mp h with rfl | h
      · exact mem_closure_of_mem_pending (List.mem_append_left _ (List.mem_reverse.mpr hr))
      · -- What is listed later differs from `p`, so its declarations are still there.
        have hne : q ≠ p := fun hqp => (fresh_of_mem_closure h).2 (hqp ▸ List.mem_cons_self)
        exact ih h (mem_direct_without_iff.mpr ⟨hne, hr⟩)
    exact listed_of_taken hnext

end Search

/-! ### The interfaces of a type -/

theorem nodup_allInterfaces (m : Model) (type : QualifiedName) : (m.allInterfaces type).Nodup :=
  nodup_closure type m.declarations [] _

/-- Whatever declarations lead to from a type is listed, unless it is the type itself. -/
theorem mem_allInterfaces_of_transGen {m : Model} (h : TransGen m.Implements type q) :
    q = type ∨ q ∈ m.allInterfaces type := by
  have hdirect {r : QualifiedName} (hr : m.Implements type r) :
      r = type ∨ r ∈ m.allInterfaces type := by
    rcases mem_closure_of_mem_pending (List.mem_reverse.mpr hr) with hself | hseen | hlisted
    · exact .inl hself
    · exact absurd hseen List.not_mem_nil
    · exact .inr hlisted
  induction h with
  | single h => exact hdirect h
  | tail _ h ih =>
    rcases ih with rfl | hlisted
    · exact hdirect h
    · rcases mem_closure_of_mem_direct hlisted h with hself | hseen | hlisted
      · exact .inl hself
      · exact absurd hseen List.not_mem_nil
      · exact .inr hlisted

/-- The interfaces listed for a type are those to which declarations lead from it. -/
theorem mem_allInterfaces_iff {m : Model} :
    q ∈ m.allInterfaces type ↔ q ≠ type ∧ TransGen m.Implements type q := by
  constructor
  · intro h
    obtain ⟨p, hp, hchain⟩ := exists_chain_of_mem_closure h
    exact ⟨(fresh_of_mem_closure h).1, .head' (List.mem_reverse.mp hp) hchain⟩
  · rintro ⟨hne, hchain⟩
    exact (mem_allInterfaces_of_transGen hchain).resolve_left hne

/-- A type implements one of some capabilities if declarations lead to it in any number of steps,
none included. -/
theorem implementsAny_iff {m : Model} {capabilities : List QualifiedName} :
    m.implementsAny type capabilities = true ↔
      ∃ c ∈ capabilities, ReflTransGen m.Implements type c := by
  simp only [implementsAny, Bool.or_eq_true, List.any_eq_true, List.contains_iff_mem,
    mem_allInterfaces_iff]
  constructor
  · rintro (h | ⟨c, ⟨-, hchain⟩, hc⟩)
    · exact ⟨type, h, .refl⟩
    · exact ⟨c, hc, hchain.to_reflTransGen⟩
  · rintro ⟨c, hc, hchain⟩
    by_cases heq : c = type
    · exact .inl (heq ▸ hc)
    · rcases reflTransGen_iff_eq_or_transGen.mp hchain with h | h
      · exact absurd h heq
      · exact .inr ⟨c, ⟨heq, h⟩, hc⟩

end Model

end ViewLint
