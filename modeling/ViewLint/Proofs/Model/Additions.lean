import ViewLint.Proofs.Model.Interfaces
import ViewLint.Rule.Detector

/-!
# The order of declarations

A model grows by bindings, interface declarations and extension methods. A later binding of an
expression takes the place of an earlier one, and so does a later method of the same name, while
interfaces add up. Apart from which binding and which method comes last, the order of the additions
does not matter to any question that a model is asked.

## Main definitions

* `Model.Addition`: one addition to a model; `Model.add` and `Model.addAll` make it.
* `Model.Addition.Agree`: sequences with the same last bindings and methods and the same interfaces.
* `Model.Alike`: models with the same bindings, methods and direct interfaces.

## Main results

* `Model.addAll_eq_or`: what the last addition says goes before what the model said.
* `Model.alike_of_agree`: sequences that agree lead to models that are alike.
* `Model.answers_eq_of_agree`: these models answer alike, and the rule matches alike.
-/

namespace ViewLint

namespace Model

open Relation

/-- One addition to a model. -/
inductive Addition where
  | binding (expr : String) (symbol : Symbol)
  | interfaces (type : QualifiedName) (interfaces : List QualifiedName)
  | extension (method : Method)

namespace Addition

/-- The symbol that the addition binds to a text without blanks. -/
def symbolFor? (text : String) : Addition → Option Symbol
  | .binding expr symbol => if text = Text.squeeze expr then some symbol else none
  | _ => none

/-- The extension method that the addition registers under a name. -/
def methodFor? (name : String) : Addition → Option Method
  | .extension method => if method.name = name then some method else none
  | _ => none

/-- The addition declares a direct interface of a type. -/
def Declares (type interface : QualifiedName) : Addition → Prop
  | .interfaces owner listed => owner = type ∧ interface ∈ listed
  | _ => False

/-- What the last of some additions says that says anything. -/
def last? {α : Type} (told : Addition → Option α) (additions : List Addition) : Option α :=
  additions.reverse.findSome? told

/-- Two sequences of additions have the same last binding of each expression, the same last method
of each name, and the same set of direct interfaces of each type. -/
structure Agree (as bs : List Addition) : Prop where
  bindings : ∀ text, last? (symbolFor? text) as = last? (symbolFor? text) bs
  extensions : ∀ name, last? (methodFor? name) as = last? (methodFor? name) bs
  interfaces : ∀ type interface,
    (∃ a ∈ as, a.Declares type interface) ↔ ∃ b ∈ bs, b.Declares type interface

end Addition

/-- The model with one more addition. -/
def add (m : Model) : Addition → Model
  | .binding expr symbol => m.bind expr symbol
  | .interfaces type interfaces => m.declareType type interfaces
  | .extension method => m.registerExtension method

/-- The model with a sequence of additions. -/
def addAll (m : Model) (additions : List Addition) : Model :=
  additions.foldl add m

variable {type q : QualifiedName}

/-! ### What a model knows after an addition -/

theorem binding?_add (m : Model) (a : Addition) (text : String) :
    (m.add a).binding? text = (a.symbolFor? (Text.squeeze text)).or (m.binding? text) := by
  cases a with
  | binding expr symbol =>
    rw [add, bind, binding?, List.lookup_cons, Addition.symbolFor?]
    by_cases h : Text.squeeze text = Text.squeeze expr
    · simp [h]
    · simp [h, beq_eq_false_iff_ne.mpr h, binding?]
  | interfaces => rfl
  | extension => rfl

theorem extension?_add (m : Model) (a : Addition) (name : String) :
    (m.add a).extension? name = (a.methodFor? name).or (m.extension? name) := by
  cases a with
  | binding => rfl
  | interfaces => rfl
  | extension method =>
    rw [add, registerExtension, extension?, List.find?_cons, Addition.methodFor?]
    by_cases h : method.name = name
    · simp [h]
    · simp [h, beq_eq_false_iff_ne.mpr h, extension?]

theorem implements_add_iff (m : Model) (a : Addition) :
    (m.add a).Implements type q ↔ m.Implements type q ∨ a.Declares type q := by
  cases a with
  | binding => exact (iff_of_eq (or_false _)).symm
  | interfaces owner interfaces =>
    simp only [Implements, add, declareType, direct, List.flatMap_append, List.mem_append,
      List.flatMap_singleton, Addition.Declares]
    by_cases h : owner = type <;> simp [h]
  | extension => exact (iff_of_eq (or_false _)).symm

/-! ### What a model knows after many -/

/-- If an answer of the model is overruled by what one addition says, it is overruled by what the
last of many additions says. -/
theorem addAll_eq_or {α : Type} (answer : Model → Option α) (told : Addition → Option α)
    (hadd : ∀ m a, answer (m.add a) = (told a).or (answer m)) (m : Model)
    (additions : List Addition) :
    answer (m.addAll additions) = (Addition.last? told additions).or (answer m) := by
  induction additions generalizing m with
  | nil => rfl
  | cons a additions ih =>
    calc answer ((m.add a).addAll additions)
        = (Addition.last? told additions).or ((told a).or (answer m)) := by rw [ih, hadd]
      _ = (Addition.last? told (a :: additions)).or (answer m) := by
        simp only [Addition.last?, List.reverse_cons, List.findSome?_append,
          List.findSome?_singleton, Option.or_assoc]

theorem binding?_addAll (m : Model) (additions : List Addition) (text : String) :
    (m.addAll additions).binding? text =
      (Addition.last? (Addition.symbolFor? (Text.squeeze text)) additions).or (m.binding? text) :=
  addAll_eq_or (·.binding? text) _ (fun m a => binding?_add m a text) m additions

theorem extension?_addAll (m : Model) (additions : List Addition) (name : String) :
    (m.addAll additions).extension? name =
      (Addition.last? (Addition.methodFor? name) additions).or (m.extension? name) :=
  addAll_eq_or (·.extension? name) _ (fun m a => extension?_add m a name) m additions

theorem implements_addAll_iff (m : Model) (additions : List Addition) :
    (m.addAll additions).Implements type q ↔
      m.Implements type q ∨ ∃ a ∈ additions, a.Declares type q := by
  induction additions generalizing m with
  | nil => simp [addAll]
  | cons a additions ih =>
    rw [addAll, List.foldl_cons]
    exact (ih (m.add a)).trans (by simp [implements_add_iff, or_assoc])

/-! ### Models that are alike -/

/-- Two models have the same bindings, the same extension methods and the same direct interfaces. -/
structure Alike (m m' : Model) : Prop where
  binding : ∀ text, m.binding? text = m'.binding? text
  extension : ∀ name, m.extension? name = m'.extension? name
  interfaces : ∀ type q, m.Implements type q ↔ m'.Implements type q

theorem alike_of_agree (m : Model) {as bs : List Addition} (h : Addition.Agree as bs) :
    (m.addAll as).Alike (m.addAll bs) where
  binding text := by rw [binding?_addAll, binding?_addAll, h.bindings]
  extension name := by rw [extension?_addAll, extension?_addAll, h.extensions]
  interfaces type q := by rw [implements_addAll_iff, implements_addAll_iff, h.interfaces]

namespace Alike

variable {m m' : Model}

theorem symbolOf_eq (h : m.Alike m') (expr : Node) : m.symbolOf expr = m'.symbolOf expr := by
  simp only [symbolOf, h.binding, h.extension]

theorem implements_eq (h : m.Alike m') : m.Implements = m'.Implements := by
  ext type q
  exact h.interfaces type q

/-- The search may list the interfaces of a type in another order, but it lists the same ones. -/
theorem allInterfaces_perm (h : m.Alike m') (type : QualifiedName) :
    (m.allInterfaces type).Perm (m'.allInterfaces type) := by
  refine (List.perm_ext_iff_of_nodup (m.nodup_allInterfaces type)
    (m'.nodup_allInterfaces type)).mpr fun q => ?_
  rw [mem_allInterfaces_iff, mem_allInterfaces_iff, h.implements_eq]

theorem implementsAny_eq (h : m.Alike m') (type : QualifiedName)
    (capabilities : List QualifiedName) :
    m.implementsAny type capabilities = m'.implementsAny type capabilities := by
  rw [Bool.eq_iff_iff, implementsAny_iff, implementsAny_iff, h.implements_eq]

/-- The rule asks a model for symbols and capabilities only. -/
theorem match?_eq (h : m.Alike m') (s : Settings) (n : Node) : s.match? m n = s.match? m' n := by
  have htransform : s.isTransform m = s.isTransform m' := by
    ext callee
    simp only [Settings.isTransform, h.symbolOf_eq]
  have hdictionary : s.isDictionary m = s.isDictionary m' := by
    ext receiver
    simp only [Settings.isDictionary, h.symbolOf_eq, h.implementsAny_eq]
  rw [Settings.match?, Settings.match?, htransform, hdictionary]

end Alike

/-- **The order of declarations does not matter.** Two sequences of additions to the same model that
agree on the last binding of each expression, on the last method of each name and on the set of
direct interfaces of each type give models with the same symbols, the same capabilities, the same
interfaces up to their order, and the same matches under all settings. -/
theorem answers_eq_of_agree (m : Model) {as bs : List Addition} (h : Addition.Agree as bs) :
    (∀ expr, (m.addAll as).symbolOf expr = (m.addAll bs).symbolOf expr) ∧
    (∀ type capabilities, (m.addAll as).implementsAny type capabilities =
      (m.addAll bs).implementsAny type capabilities) ∧
    (∀ type, ((m.addAll as).allInterfaces type).Perm ((m.addAll bs).allInterfaces type)) ∧
    ∀ (s : Settings) (n : Node), s.match? (m.addAll as) n = s.match? (m.addAll bs) n := by
  have halike := m.alike_of_agree h
  exact ⟨halike.symbolOf_eq, halike.implementsAny_eq, halike.allInterfaces_perm, halike.match?_eq⟩

/-- The type of settings, with two interfaces, one of which implements the other. -/
def Addition.settings : List Addition :=
  [.binding "d . Select" (.namespaceName "Old"),
    .interfaces ⟨"App", "Settings"⟩ [⟨"App", "IReader"⟩, ⟨"App", "IWriter"⟩],
    .extension ⟨"Select", ⟨"App", "Queries"⟩, none⟩, .binding "d.Select" (.namespaceName "App"),
    .interfaces ⟨"App", "IReader"⟩ [⟨"App", "IWriter"⟩]]

/-- The same additions in another order, with repetitions and with others that are overruled. -/
def Addition.settingsReordered : List Addition :=
  [.interfaces ⟨"App", "IReader"⟩ [⟨"App", "IWriter"⟩, ⟨"App", "IWriter"⟩],
    .extension ⟨"Select", ⟨"App", "Other"⟩, none⟩, .binding " d.Select" (.namespaceName "App"),
    .interfaces ⟨"App", "Settings"⟩ [⟨"App", "IWriter"⟩], .interfaces ⟨"App", "IWriter"⟩ [],
    .extension ⟨"Select", ⟨"App", "Queries"⟩, none⟩,
    .interfaces ⟨"App", "Settings"⟩ [⟨"App", "IReader"⟩]]

/-- The interfaces of the settings are listed in another order, and no answer changes. -/
theorem answers_eq_of_agree_settings :
    let m := empty.addAll Addition.settings
    let m' := empty.addAll Addition.settingsReordered
    Addition.Agree Addition.settings Addition.settingsReordered ∧
      m.allInterfaces ⟨"App", "Settings"⟩ = [⟨"App", "IWriter"⟩, ⟨"App", "IReader"⟩] ∧
      m'.allInterfaces ⟨"App", "Settings"⟩ = [⟨"App", "IReader"⟩, ⟨"App", "IWriter"⟩] ∧
      (m.allInterfaces ⟨"App", "Settings"⟩).Perm (m'.allInterfaces ⟨"App", "Settings"⟩) ∧
      ∀ (s : Settings) (n : Node), s.match? m n = s.match? m' n := by
  intro m m'
  have hspaced : Text.squeeze "d . Select" = "d.Select" := by decide
  have hleading : Text.squeeze " d.Select" = "d.Select" := by decide
  have hplain : Text.squeeze "d.Select" = "d.Select" := by decide
  have hagree : Addition.Agree Addition.settings Addition.settingsReordered := by
    refine ⟨fun text => ?_, fun name => ?_, fun type interface => ?_⟩
    · by_cases h : text = "d.Select" <;>
        simp [Addition.settings, Addition.settingsReordered, Addition.last?, Addition.symbolFor?,
          List.findSome?_cons, hspaced, hleading, hplain, h]
    · by_cases h : "Select" = name <;>
        simp [Addition.settings, Addition.settingsReordered, Addition.last?, Addition.methodFor?,
          List.findSome?_cons, h]
    · simp only [Addition.settings, Addition.settingsReordered, Addition.Declares, List.mem_cons,
        List.not_mem_nil, or_false, exists_eq_or_imp, exists_eq_left]
      grind
  obtain ⟨-, -, hperm, hmatch⟩ := answers_eq_of_agree empty hagree
  refine ⟨hagree, ?_, ?_, hperm _, hmatch⟩
  · simp [m, allInterfaces, closure, direct, without, addAll, add, bind, declareType,
      registerExtension, empty, Addition.settings]
  · simp [m', allInterfaces, closure, direct, without, addAll, add, bind, declareType,
      registerExtension, empty, Addition.settingsReordered]

end Model

end ViewLint
