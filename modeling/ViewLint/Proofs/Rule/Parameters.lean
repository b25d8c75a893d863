import ViewLint.Proofs.Fix.Agreement
import ViewLint.Proofs.Rule.Specification

/-!
# The parameters of a flagged function

The shape of a function lists the names of the `parameter` nodes in its parameter list. The grammar
puts the parts of a parameter array, its type and its name, into the list itself, and the shape
passes over them. So a flagged function has one `parameter` node, and it has one parameter if and
only if nothing but `parameter` nodes counts in its list.

## Main definitions

* `Node.ParametersAre`: the node with the parameters of a lambda or of an anonymous method.
* `Node.Plain`: nothing but `parameter` nodes counts in a list.

## Main results

* `LambdaShape.length_names_eq_iff`: a shape has a name for all that counts in a plain list only.
* `Settings.match?_one_parameter`: the parameter list of a flagged function.
* `Settings.match?_of_parameter_array`: a function with a parameter array besides is flagged.
-/

namespace ViewLint

namespace Node

variable {lambda ps ps' c : Node}

/-- The node with the parameters of a function. An anonymous method has them in a field only. -/
inductive ParametersAre (lambda ps : Node) : Prop
  | lambda (hkind : lambda.kind = "lambda_expression") (hps : lambda.HasParameters ps)
  | delegate (hkind : lambda.kind = "anonymous_method_expression")
      (hps : lambda.IsFirst (Fills "parameters") ps)

/-- Nothing but `parameter` nodes counts among the children. -/
def Plain (ps : Node) : Prop :=
  ∀ c ∈ ps.significant, c.kind = "parameter"

instance : DecidablePred Plain := fun ps =>
  inferInstanceAs (Decidable (∀ c ∈ ps.significant, c.kind = "parameter"))

/-- A function has its parameters in one place. -/
theorem ParametersAre.unique (h : lambda.ParametersAre ps) (h' : lambda.ParametersAre ps') :
    ps = ps' := by
  cases h with
  | lambda hkind hps =>
    cases h' with
    | lambda _ hps' =>
      rw [← LambdaShape.parametersOf?_eq_some_iff] at hps hps'
      exact Option.some.inj (hps.symm.trans hps')
    | delegate hkind' _ => exact absurd (hkind.symm.trans hkind') (by decide)
  | delegate hkind hps =>
    cases h' with
    | lambda hkind' _ => exact absurd (hkind.symm.trans hkind') (by decide)
    | delegate _ hps' =>
      rw [← field?_eq_some_iff] at hps hps'
      exact Option.some.inj (hps.symm.trans hps')

/-- The parameters of a function of one parameter are a bare name, or a list with one `parameter`
node. -/
theorem TakesOne.parametersAre {name : String} (h : lambda.TakesOne name) :
    ∃ ps, lambda.ParametersAre ps ∧ (ps.kind = "parameter_list" → ps.ListsOne name) := by
  cases h with
  | bare hkind hps hbare =>
    refine ⟨_, .lambda hkind hps, fun hlist => ?_⟩
    rcases hbare with hbare | hbare <;> exact absurd (hlist.symm.trans hbare) (by decide)
  | listed hkind hps hlist => exact ⟨_, .lambda hkind hps, fun _ => hlist⟩
  | delegate hkind hps hlist => exact ⟨_, .delegate hkind hps, fun _ => hlist⟩

/-- The one `parameter` node of a list is all that counts in it if the list is plain. -/
theorem significant_eq_singleton_iff
    (h : ps.significant.filter (·.kind == "parameter") = [c]) :
    ps.significant = [c] ↔ ps.Plain := by
  constructor
  · intro hone d hd
    have hmem : d ∈ ps.significant.filter (·.kind == "parameter") := by rwa [h, ← hone]
    simpa using (List.mem_filter.mp hmem).2
  · intro hplain
    rw [← h, List.filter_eq_self.mpr fun d hd => beq_iff_eq.mpr (hplain d hd)]

theorem filter_significant_of_listsOne {name : String} (h : ps.ListsOne name) :
    ∃ c, ps.significant.filter (·.kind == "parameter") = [c] ∧
      LambdaShape.parameterName? c = some name := by
  obtain ⟨-, parameter, identifier, honly, hname, hkind, htext⟩ := h
  refine ⟨parameter, ?_, LambdaShape.parameterName?_eq_some_iff.mpr
    ⟨identifier, hname, hkind, htext⟩⟩
  rw [ps.significant_filter_eq_pick fun c => by rw [beq_iff_eq]]
  exact pick_eq_singleton_iff.mpr honly

end Node

open Node

namespace LambdaShape

variable {lambda ps : Node} {names : List String}

/-- The shape of a function with a parameter list is that of the list. -/
theorem of?_eq_ofList? (hps : lambda.ParametersAre ps) (hlist : ps.kind = "parameter_list") :
    of? lambda = ofList? ps := by
  cases hps with
  | lambda hkind hps =>
    simp [of?, hkind, parametersOf?_eq_some_iff.mpr hps, hlist]
  | delegate hkind hps =>
    rw [of?, if_pos hkind, filter_kind_eq_some_iff.mpr ⟨field?_eq_some_iff.mpr hps, hlist⟩,
      Option.bind_some]

theorem length_of_mapM_parameterName? {parameters : List Node}
    (h : parameters.mapM parameterName? = some names) : names.length = parameters.length := by
  induction parameters generalizing names with
  | nil =>
    obtain rfl : [] = names := by simpa using h
    rfl
  | cons parameter parameters ih =>
    rw [List.mapM_cons] at h
    obtain ⟨name, -, h⟩ := Option.bind_eq_some_iff.mp h
    obtain ⟨rest, hrest, h⟩ := Option.bind_eq_some_iff.mp h
    obtain rfl := Option.some.inj h
    rw [List.length_cons, List.length_cons, ih hrest]

/-- A list gives a name for each of its `parameter` nodes. -/
theorem length_names_of_ofList? (h : ofList? ps = some (parenthesized names)) :
    names.length = (ps.significant.filter (·.kind == "parameter")).length := by
  obtain ⟨names', hnames, heq⟩ := Option.map_eq_some_iff.mp h
  obtain rfl := parenthesized.inj heq
  exact length_of_mapM_parameterName? hnames

/-- The shape of a function has as many names as nodes count in the parameter list if and only if
the list is plain. -/
theorem length_names_eq_iff (hps : lambda.ParametersAre ps) (hlist : ps.kind = "parameter_list")
    (h : of? lambda = some (parenthesized names)) :
    names.length = ps.significant.length ↔ ps.Plain := by
  rw [of?_eq_ofList? hps hlist] at h
  rw [length_names_of_ofList? h, List.length_filter_eq_length_iff, Plain]
  simp only [beq_iff_eq]

end LambdaShape

/-- The call `d.Select((...)=>e.Key)` with the given children between the parentheses. -/
def Node.projectionOf (parameters : List Child) : Node :=
  let mark (text : String) : Child := (none, .token text false ⟨0, 0⟩ "" text)
  let name (text : String) : Node := .token "identifier" true ⟨0, 0⟩ "" text
  let access (object member : String) : Node :=
    ofChildren "member_access_expression"
      [(some "expression", name object), mark ".", (some "name", name member)] true
  let list : Node := ofChildren "parameter_list" (mark "(" :: parameters ++ [mark ")"]) true
  let selector : Node := ofChildren "lambda_expression"
    [(some "parameters", list), mark "=>", (some "body", access "e" "Key")] true
  ofChildren "invocation_expression"
    [(some "function", access "d" "Select"),
      (some "arguments", ofChildren "argument_list"
        [mark "(", (none, ofChildren "argument" [(none, selector)] true), mark ")"] true)] true

/-- The parameter `e`. -/
def Node.bareParameter : Child :=
  (none, ofChildren "parameter"
    [(some "name", .token "identifier" true ⟨0, 0⟩ "" "e")] true)

/-- The parts of the parameter array `params int[] r` after a comma, as they stand in a list. -/
def Node.parameterArray : List Child :=
  let mark (text : String) : Child := (none, .token text false ⟨0, 0⟩ "" text)
  let type : Node := ofChildren "array_type"
    [(some "type", .token "predefined_type" true ⟨0, 0⟩ " " "int"),
      (some "rank", ofChildren "array_rank_specifier" [mark "[", mark "]"] true)] true
  [mark ",", (none, .token "params" false ⟨0, 0⟩ " " "params"), (some "type", type),
    (some "name", .token "identifier" true ⟨0, 0⟩ " " "r")]

namespace Settings

open Analyzer (ofDictionary)

variable {s : Settings} {m : Model} {n : Node} {found : ViewMatch}

/-- The first argument of a flagged call is a function of one parameter. -/
theorem takesOne_of_match? (h : s.match? m n = some found) :
    ∃ lambda name, selectorOf? n = some lambda ∧ lambda.TakesOne name := by
  obtain ⟨callee, -, h⟩ := Option.bind_eq_some_iff.mp h
  split at h
  next =>
    obtain ⟨receiver, -, h⟩ := Option.bind_eq_some_iff.mp h
    split at h
    next =>
      obtain ⟨lambda, hlambda, h⟩ := Option.bind_eq_some_iff.mp h
      obtain ⟨member, hmember, -⟩ := Option.bind_eq_some_iff.mp h
      obtain ⟨name, -, -, -, htakes, -⟩ := selectedMember?_eq_some_iff.mp hmember
      exact ⟨lambda, name, hlambda, htakes⟩
    next => cases h
  next => cases h

/-- The parameter list of a flagged function has a single `parameter` node, whose name is the shape
of the function. -/
theorem parameter_of_match? (h : s.match? m n = some found) :
    ∃ lambda ps, selectorOf? n = some lambda ∧ lambda.ParametersAre ps ∧
      (ps.kind = "parameter_list" → ∃ parameter name,
        ps.significant.filter (·.kind == "parameter") = [parameter] ∧
        LambdaShape.parameterName? parameter = some name ∧
        LambdaShape.of? lambda = some (.parenthesized [name])) := by
  obtain ⟨lambda, name, hlambda, htakes⟩ := takesOne_of_match? h
  obtain ⟨ps, hps, hlists⟩ := htakes.parametersAre
  refine ⟨lambda, ps, hlambda, hps, fun hlist => ?_⟩
  obtain ⟨parameter, hone, hname⟩ := filter_significant_of_listsOne (hlists hlist)
  refine ⟨parameter, name, hone, hname, ?_⟩
  rw [LambdaShape.of?_eq_ofList? hps hlist, LambdaShape.ofList?, hone]
  simp [hname]

/-- **A flagged function has one parameter if its parameter list is plain.** Take any node. If it is
flagged as a call and the parameters of its function are a list, then a single `parameter` node
counts in the list, whose name is the shape of the function; that node is all that counts if and
only if nothing but `parameter` nodes counts in the list. If the node is itself a function with a
parameter list, its shape has as many names as nodes count in the list if and only if the list is
plain. -/
theorem match?_one_parameter (s : Settings) (m : Model) (n : Node) :
    (∀ found, s.match? m n = some found →
      ∃ lambda ps, selectorOf? n = some lambda ∧ lambda.ParametersAre ps ∧
        (∀ ps', lambda.ParametersAre ps' → ps' = ps) ∧
        (ps.kind = "parameter_list" → ∃ parameter name,
          ps.significant.filter (·.kind == "parameter") = [parameter] ∧
          LambdaShape.parameterName? parameter = some name ∧
          LambdaShape.of? lambda = some (.parenthesized [name]) ∧
          (ps.significant = [parameter] ↔ ps.Plain))) ∧
    ∀ ps names, n.ParametersAre ps → ps.kind = "parameter_list" →
      LambdaShape.of? n = some (.parenthesized names) →
        (names.length = ps.significant.length ↔ ps.Plain) := by
  refine ⟨fun found h => ?_, fun ps names => LambdaShape.length_names_eq_iff⟩
  obtain ⟨lambda, ps, hlambda, hps, hlist⟩ := parameter_of_match? h
  refine ⟨lambda, ps, hlambda, hps, fun ps' hps' => hps'.unique hps, fun hkind => ?_⟩
  obtain ⟨parameter, name, hone, hname, hshape⟩ := hlist hkind
  exact ⟨parameter, name, hone, hname, hshape, significant_eq_singleton_iff hone⟩

/-- A comment in the list does not count: in the flagged call `d.Select((/*c*/e)=>e.Key)` the
function has one parameter. -/
theorem match?_one_parameter_commented :
    let call : Node :=
      projectionOf [(none, .token "comment" true ⟨0, 0⟩ "" "/*c*/"), bareParameter]
    ofDictionary.settings.match? ofDictionary.model call = some ⟨.keys, "Key"⟩ ∧
      ∃ lambda ps, selectorOf? call = some lambda ∧ lambda.ParametersAre ps ∧
        ps.kind = "parameter_list" ∧ ps.Plain ∧ ps.significant = [bareParameter.2] ∧
        LambdaShape.of? lambda = some (.parenthesized ["e"]) ∧
        ["e"].length = ps.significant.length := by
  intro call
  have hmatch : ofDictionary.settings.match? ofDictionary.model call = some ⟨.keys, "Key"⟩ := rfl
  refine ⟨hmatch, ?_⟩
  obtain ⟨lambda, ps, hlambda, hps, hunique, hlist⟩ := (match?_one_parameter _ _ call).1 _ hmatch
  have hshown : ∃ ps₀, lambda.ParametersAre ps₀ ∧ ps₀.kind = "parameter_list" ∧ ps₀.Plain ∧
      ps₀.significant.filter (·.kind == "parameter") = [bareParameter.2] ∧
      LambdaShape.of? lambda = some (.parenthesized ["e"]) := by
    obtain rfl := Option.some.inj hlambda
    exact ⟨_, .lambda rfl (LambdaShape.parametersOf?_eq_some_iff.mp rfl), rfl, by decide, rfl, rfl⟩
  obtain ⟨ps₀, hps₀, hkind, hplain, hone, hshape⟩ := hshown
  obtain rfl := hunique ps₀ hps₀
  obtain ⟨parameter, -, hfilter, -, -, hiff⟩ := hlist hkind
  obtain rfl : bareParameter.2 = parameter := List.singleton_inj.mp (hone.symm.trans hfilter)
  exact ⟨lambda, ps₀, hlambda, hps, hkind, hplain, hiff.mpr hplain, hshape,
    ((match?_one_parameter ofDictionary.settings ofDictionary.model lambda).2 ps₀ ["e"] hps hkind
      hshape).mpr hplain⟩

/-- **A parameter array is not counted.** The function `(e, params int[] r)=>e.Key` has two
parameters, and its list holds three nodes that count, but its shape has a single name, and the call
is flagged. -/
theorem match?_of_parameter_array :
    let call : Node := projectionOf (bareParameter :: parameterArray)
    ∃ lambda ps, selectorOf? call = some lambda ∧ lambda.ParametersAre ps ∧
      ps.kind = "parameter_list" ∧ ps.text = "(e, params int[] r)" ∧
      ps.significant.map kind = ["parameter", "array_type", "identifier"] ∧
      LambdaShape.of? lambda = some (.parenthesized ["e"]) ∧
      ofDictionary.settings.match? ofDictionary.model call = some ⟨.keys, "Key"⟩ :=
  ⟨_, _, rfl, .lambda rfl (LambdaShape.parametersOf?_eq_some_iff.mp rfl), rfl, rfl, rfl, rfl, rfl⟩

end Settings

end ViewLint
