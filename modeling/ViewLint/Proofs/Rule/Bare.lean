import ViewLint.Proofs.Tree.Bare
import ViewLint.Rule.Detector

/-!
# The rule does not look at spans

Whether a node is flagged, and with which view, is a matter of its bare form: two nodes that
differ in nothing but spans match alike.

## Main results

* `Settings.match?_bare`: a node matches as its bare form does.
-/

namespace ViewLint

open Node

/-- A test that a part of a node passes or fails whatever its spans are can be made on the bare
form. -/
theorem filter_map_bare (x : Option Node) (p : Node → Bool) (hp : ∀ n, p n.bare = p n) :
    (x.map bare).filter p = (x.filter p).map bare := by
  cases x with
  | none => rfl
  | some n =>
    rw [Option.map_some, Option.filter_some, Option.filter_some, hp]
    split <;> rfl

/-! ### Anonymous functions -/

@[simp] theorem isAnonymousFunction_bare (n : Node) :
    n.bare.isAnonymousFunction = n.isAnonymousFunction := by
  rw [isAnonymousFunction, isAnonymousFunction, kind_bare]

namespace LambdaShape

@[simp] theorem isParameters_bare (n : Node) : isParameters n.bare = isParameters n := by
  rw [isParameters, isParameters, kind_bare]

@[simp] theorem parameterName?_bare (n : Node) : parameterName? n.bare = parameterName? n := by
  rw [parameterName?, field?_bare, filter_map_bare _ _ fun n => by rw [kind_bare],
    Option.map_map, parameterName?]
  congr 1
  funext m
  exact text_bare m

@[simp] theorem ofList?_bare (n : Node) : ofList? n.bare = ofList? n := by
  have hkind : (fun c : Node => c.kind == "parameter") ∘ bare = fun c => c.kind == "parameter" := by
    funext c
    rw [Function.comp_apply, kind_bare]
  have hname : parameterName? ∘ bare = parameterName? := by
    funext c
    exact parameterName?_bare c
  rw [ofList?, significant_bare, List.filter_map, hkind, List.mapM_map, hname, ofList?]

@[simp] theorem parametersOf?_bare (n : Node) :
    parametersOf? n.bare = (parametersOf? n).map bare := by
  have hparams : isParameters ∘ bare = isParameters := by
    funext c
    exact isParameters_bare c
  rw [parametersOf?, field?_bare, significant_bare, List.find?_map, hparams, parametersOf?]
  cases n.field? "parameters" <;> rfl

@[simp] theorem of?_bare (n : Node) : of? n.bare = of? n := by
  rw [of?, of?, kind_bare, field?_bare, filter_map_bare _ _ fun n => by rw [kind_bare],
    parametersOf?_bare]
  congr 1
  · cases (n.field? "parameters").filter fun c => c.kind == "parameter_list" with
    | none => rfl
    | some list => exact ofList?_bare list
  · cases parametersOf? n with
    | none => rfl
    | some parameters => simp

end LambdaShape

theorem only?_map_bare (ns : List Node) : only? (ns.map bare) = (only? ns).map bare := by
  match ns with
  | [] => rfl
  | [n] => rfl
  | _ :: _ :: _ => rfl

theorem getLast?_significant_bare (n : Node) :
    n.bare.significant.getLast? = n.significant.getLast?.map bare := by
  rw [significant_bare, List.getLast?_map]

@[simp] theorem returned?_bare (n : Node) : returned? n.bare = (returned? n).map bare := by
  rw [returned?, returned?, field?_bare, getLast?_significant_bare, ← Option.map_or]
  cases (n.field? "body").or n.significant.getLast? with
  | none => rfl
  | some body =>
    simp only [Option.map_some, Option.bind_eq_bind, Option.bind_some, kind_bare,
      significant_bare, only?_map_bare]
    split
    · cases only? body.significant with
      | none => rfl
      | some statement =>
        simp only [Option.map_some, Option.bind_some, kind_bare, significant_bare, only?_map_bare]
        split <;> rfl
    · rfl

/-! ### The parts of a call -/

@[simp] theorem calleeOf?_bare (n : Node) : calleeOf? n.bare = (calleeOf? n).map bare := by
  rw [calleeOf?, calleeOf?, kind_bare, field?_bare,
    filter_map_bare _ _ fun n => by rw [kind_bare]]
  split <;> rfl

@[simp] theorem receiverOf?_bare (n : Node) : receiverOf? n.bare = (receiverOf? n).map bare := by
  rw [receiverOf?, receiverOf?, field?_bare]

@[simp] theorem selectorOf?_bare (n : Node) : selectorOf? n.bare = (selectorOf? n).map bare := by
  rw [selectorOf?, selectorOf?, field?_bare]
  cases n.field? "arguments" with
  | none => rfl
  | some arguments =>
    simp only [Option.map_some, Option.bind_eq_bind, Option.bind_some, significant_bare,
      List.head?_map]
    rw [filter_map_bare _ _ fun n => by rw [kind_bare]]
    cases arguments.significant.head?.filter fun c => c.kind == "argument" with
    | none => rfl
    | some argument =>
      simp only [Option.map_some, Option.bind_some, significant_bare, List.getLast?_map]
      rw [filter_map_bare _ _ isAnonymousFunction_bare]

@[simp] theorem selectedMember?_bare (n : Node) : selectedMember? n.bare = selectedMember? n := by
  rw [selectedMember?, selectedMember?, LambdaShape.of?_bare, returned?_bare,
    filter_map_bare _ _ fun n => by rw [kind_bare]]
  cases LambdaShape.of? n with
  | none => rfl
  | some shape =>
    cases hsingle : shape.single? with
    | none => simp [hsingle]
    | some parameter =>
      cases (returned? n).filter fun c => c.kind == "member_access_expression" with
      | none => simp
      | some projection =>
        simp only [Option.map_some, Option.bind_eq_bind, Option.bind_some, hsingle, field?_bare]
        rw [filter_map_bare _ _ fun n => by rw [kind_bare],
          filter_map_bare _ _ fun n => by rw [kind_bare]]
        cases (projection.field? "expression").filter fun c => c.kind == "identifier" with
        | none => rfl
        | some target =>
          simp only [Option.map_some, Option.bind_some, text_bare]
          cases (projection.field? "name").filter fun c => c.kind == "identifier" with
          | none => rfl
          | some member => simp only [Option.map_some, Option.bind_some, text_bare]

/-! ### Symbols -/

@[simp] theorem symbolOf_bare (m : Model) (n : Node) : m.symbolOf n.bare = m.symbolOf n := by
  rw [Model.symbolOf, Model.symbolOf, text_bare, kind_bare, field?_bare]
  cases n.field? "name" with
  | none => rfl
  | some member => simp only [Option.map_some, Option.bind_eq_bind, Option.bind_some,
      simpleName?_bare]

namespace Settings

@[simp] theorem isTransform_bare (s : Settings) (m : Model) (n : Node) :
    s.isTransform m n.bare = s.isTransform m n := by
  rw [isTransform, isTransform, symbolOf_bare]

@[simp] theorem isDictionary_bare (s : Settings) (m : Model) (n : Node) :
    s.isDictionary m n.bare = s.isDictionary m n := by
  rw [isDictionary, isDictionary, symbolOf_bare]

/-- A node matches as its bare form does. -/
theorem match?_bare (s : Settings) (m : Model) (n : Node) :
    s.match? m n.bare = s.match? m n := by
  rw [match?, match?, calleeOf?_bare, selectorOf?_bare]
  cases calleeOf? n with
  | none => rfl
  | some callee =>
    simp only [Option.map_some, Option.bind_eq_bind, Option.bind_some, isTransform_bare,
      receiverOf?_bare]
    cases receiverOf? callee with
    | none => rfl
    | some receiver =>
      simp only [Option.map_some, Option.bind_some, isDictionary_bare]
      cases selectorOf? n with
      | none => rfl
      | some lambda => simp only [Option.map_some, Option.bind_some, selectedMember?_bare]

/-- Nodes with the same bare form match alike. -/
theorem match?_eq_of_bare_eq (s : Settings) (m : Model) {n n' : Node} (h : n.bare = n'.bare) :
    s.match? m n = s.match? m n' := by
  rw [← match?_bare, h, match?_bare]

end Settings

end ViewLint
