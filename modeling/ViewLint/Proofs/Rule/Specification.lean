import ViewLint.Proofs.Model.Interfaces
import ViewLint.Rule.Detector

/-!
# What the rule flags

The rule decides in many short steps whether a node is flagged, each with fallbacks of its own. This
module says without them what is flagged: a call through a member access that denotes a configured
projection, on a receiver whose type is led to a configured capability, with a function of one
parameter that returns a component of that parameter.

## Main definitions

* `Node.IsFirst`, `Node.IsLast`, `Node.IsOnly`: the children of a node that have a property.
* `Model.Denotes`: the symbol that an expression denotes.
* `Node.TakesOne`, `Node.Returns`, `Node.Selects`: functions, their parameter and their result.
* `Settings.Projects`: a node projects a dictionary onto a component.

## Main results

* `Model.symbolOf_eq_some_iff`, `single?_of?_eq_some_iff`, `returned?_eq_some_iff`: the steps of the
  rule, each against its description.
* `Settings.match?_eq_some_iff`: the rule matches exactly the projections.
-/

namespace ViewLint

open Relation

namespace Node

/-! ### Children with a property -/

/-- The child fills a field. -/
def Fills (name : String) (d : Child) : Prop :=
  d.1 = some name

/-- The child is named and no comment. -/
def Counts (d : Child) : Prop :=
  d.2.named = true ∧ d.2.kind ≠ "comment"

/-- The node is of a kind that can stand for the parameters of a lambda. -/
def CanBeParameters (n : Node) : Prop :=
  n.kind = "parameter_list" ∨ n.kind = "implicit_parameter" ∨ n.kind = "identifier"

instance (name : String) : DecidablePred (Fills name) := fun _ =>
  inferInstanceAs (Decidable (_ = _))

instance : DecidablePred Counts := fun _ =>
  inferInstanceAs (Decidable (_ ∧ _))

instance : DecidablePred CanBeParameters := fun _ =>
  inferInstanceAs (Decidable (_ ∨ _))

/-- The node `c` is the first child of `n` with a property. -/
def IsFirst (p : Child → Prop) (n c : Node) : Prop :=
  ∃ before field after, n.children = before ++ (field, c) :: after ∧ p (field, c) ∧
    ∀ d ∈ before, ¬ p d

/-- The node `c` is the last child of `n` with a property. -/
def IsLast (p : Child → Prop) (n c : Node) : Prop :=
  ∃ before field after, n.children = before ++ (field, c) :: after ∧ p (field, c) ∧
    ∀ d ∈ after, ¬ p d

/-- The node `c` is the only child of `n` with a property. -/
def IsOnly (p : Child → Prop) (n c : Node) : Prop :=
  ∃ before field after, n.children = before ++ (field, c) :: after ∧ p (field, c) ∧
    (∀ d ∈ before, ¬ p d) ∧ ∀ d ∈ after, ¬ p d

/-- No child of `n` has a property. -/
def HasNone (p : Child → Prop) (n : Node) : Prop :=
  ∀ d ∈ n.children, ¬ p d

section Pick

variable {n c : Node} {p : Child → Prop} [DecidablePred p]

/-- The children with a property, in order. -/
def pick (n : Node) (p : Child → Prop) [DecidablePred p] : List Node :=
  (n.children.filter p).map (·.2)

theorem head?_pick : (n.pick p).head? = some c ↔ n.IsFirst p c := by
  rw [pick, List.head?_map, List.head?_filter, Option.map_eq_some_iff]
  simp only [List.find?_eq_some_iff_append, IsFirst]
  constructor
  · rintro ⟨⟨field, c⟩, ⟨hp, before, after, hcs, hbefore⟩, rfl⟩
    exact ⟨before, field, after, hcs, by simpa using hp, by simpa using hbefore⟩
  · rintro ⟨before, field, after, hcs, hp, hbefore⟩
    exact ⟨(field, c), ⟨by simpa using hp, before, after, hcs, by simpa using hbefore⟩, rfl⟩

theorem getLast?_pick : (n.pick p).getLast? = some c ↔ n.IsLast p c := by
  rw [pick, List.getLast?_map, List.getLast?_filter, Option.map_eq_some_iff]
  simp only [List.find?_eq_some_iff_append, IsLast]
  constructor
  · rintro ⟨⟨field, c⟩, ⟨hp, after, before, hcs, hafter⟩, rfl⟩
    refine ⟨before.reverse, field, after.reverse, ?_, by simpa using hp, by simpa using hafter⟩
    rw [← List.reverse_reverse n.children, hcs]
    simp
  · rintro ⟨before, field, after, hcs, hp, hafter⟩
    refine ⟨(field, c), ⟨by simpa using hp, after.reverse, before.reverse, ?_, ?_⟩, rfl⟩
    · rw [hcs]
      simp
    · simpa using hafter

theorem pick_eq_singleton_iff : n.pick p = [c] ↔ n.IsOnly p c := by
  simp only [pick, List.map_eq_singleton_iff, List.filter_eq_cons_iff, List.filter_eq_nil_iff,
    IsOnly, decide_eq_true_eq]
  constructor
  · rintro ⟨⟨field, c⟩, ⟨before, after, hcs, hbefore, hp, hafter⟩, rfl⟩
    exact ⟨before, field, after, hcs, hp, hbefore, hafter⟩
  · rintro ⟨before, field, after, hcs, hp, hbefore, hafter⟩
    exact ⟨(field, c), ⟨before, after, hcs, hbefore, hp, hafter⟩, rfl⟩

/-- The children that pass a test, as those that have the property it tests. -/
theorem filter_children_eq_pick {test : Child → Bool} (h : ∀ d, test d = true ↔ p d) :
    (n.children.filter test).map (·.2) = n.pick p := by
  have htest : test = fun d => decide (p d) := by
    ext d
    rw [Bool.eq_iff_iff, decide_eq_true_iff]
    exact h d
  rw [pick, htest]

/-- The first child that passes a test. -/
theorem find?_children_eq_some_iff {test : Child → Bool} (h : ∀ d, test d = true ↔ p d) :
    (n.children.find? test).map (·.2) = some c ↔ n.IsFirst p c := by
  rw [← List.head?_filter, ← List.head?_map, filter_children_eq_pick h, head?_pick]

end Pick

variable {n c : Node}

theorem significant_eq_pick (n : Node) : n.significant = n.pick Counts := by
  rw [significant, List.filter_map]
  exact filter_children_eq_pick fun d => by simp [Counts]

/-- The children that count and pass a test. -/
theorem significant_filter_eq_pick (n : Node) {test : Node → Bool} {q : Node → Prop}
    [DecidablePred q] (h : ∀ c, test c = true ↔ q c) :
    n.significant.filter test = n.pick fun d => Counts d ∧ q d.2 := by
  rw [significant, List.filter_map, List.filter_map, List.filter_filter]
  exact filter_children_eq_pick fun d => by simp [Counts, h, and_comm]

theorem field?_eq_some_iff {name : String} :
    n.field? name = some c ↔ n.IsFirst (Fills name) c :=
  find?_children_eq_some_iff fun d => by simp [Fills]

theorem field?_eq_none_iff {name : String} : n.field? name = none ↔ n.HasNone (Fills name) := by
  simp [field?, HasNone, Fills]

theorem head?_significant : n.significant.head? = some c ↔ n.IsFirst Counts c := by
  rw [significant_eq_pick, head?_pick]

theorem getLast?_significant : n.significant.getLast? = some c ↔ n.IsLast Counts c := by
  rw [significant_eq_pick, getLast?_pick]

theorem only?_significant : only? n.significant = some c ↔ n.IsOnly Counts c := by
  have honly (ns : List Node) : only? ns = some c ↔ ns = [c] := by
    match ns with
    | [] => simp [only?]
    | [m] => simp [only?]
    | _ :: _ :: _ => simp [only?]
  rw [honly, significant_eq_pick, pick_eq_singleton_iff]

/-! ### Names -/

/-- The identifier of a simple name, with or without type arguments. -/
inductive Names (n : Node) : String → Prop
  | identifier (h : n.kind = "identifier") : Names n n.text
  | generic {c : Node} (h : n.kind = "generic_name")
      (hc : n.IsFirst (fun d => d.2.kind = "identifier") c) : Names n c.text

theorem simpleName?_eq_some_iff {name : String} : n.simpleName? = some name ↔ n.Names name := by
  have hfirst (c : Node) : (n.children.find? fun d => d.2.kind == "identifier").map (·.2) = some c ↔
      n.IsFirst (fun d => d.2.kind = "identifier") c :=
    find?_children_eq_some_iff fun d => by simp
  have htext : (n.children.find? fun d => d.2.kind == "identifier").map (·.2.text) =
      ((n.children.find? fun d => d.2.kind == "identifier").map (·.2)).map text := by
    rw [Option.map_map]
    rfl
  rw [simpleName?, htext]
  constructor
  · intro h
    split at h
    next hkind =>
      obtain rfl := Option.some.inj h
      exact .identifier hkind
    next =>
      split at h
      next hkind =>
        obtain ⟨c, hc, rfl⟩ := Option.map_eq_some_iff.mp h
        exact .generic hkind ((hfirst c).mp hc)
      next => cases h
  · intro h
    cases h with
    | identifier hkind => rw [if_pos hkind]
    | generic hkind hc =>
      rw [if_neg (by simp [hkind]), if_pos hkind, (hfirst _).mpr hc, Option.map_some]

/-! ### Functions -/

/-- The node with the parameters of a lambda: its field, or in want of one the first child that can
be. -/
def HasParameters (lambda ps : Node) : Prop :=
  lambda.IsFirst (Fills "parameters") ps ∨
    lambda.HasNone (Fills "parameters") ∧
      lambda.IsFirst (fun d => Counts d ∧ CanBeParameters d.2) ps

/-- A parameter list with a single parameter, which is called `name`. -/
def ListsOne (ps : Node) (name : String) : Prop :=
  ps.kind = "parameter_list" ∧
    ∃ parameter identifier, ps.IsOnly (fun d => Counts d ∧ d.2.kind = "parameter") parameter ∧
      parameter.IsFirst (Fills "name") identifier ∧ identifier.kind = "identifier" ∧
      identifier.text = name

/-- A function of one parameter, which is called `name`: a lambda with a bare name or with a list,
or an anonymous method with a list. -/
inductive TakesOne (lambda : Node) (name : String) : Prop
  | bare {ps : Node} (hkind : lambda.kind = "lambda_expression") (hps : lambda.HasParameters ps)
      (hbare : ps.kind = "implicit_parameter" ∨ ps.kind = "identifier") (hname : ps.text = name)
  | listed {ps : Node} (hkind : lambda.kind = "lambda_expression") (hps : lambda.HasParameters ps)
      (hlist : ps.ListsOne name)
  | delegate {ps : Node} (hkind : lambda.kind = "anonymous_method_expression")
      (hps : lambda.IsFirst (Fills "parameters") ps) (hlist : ps.ListsOne name)

/-- The body of a function: its field, or in want of one the last child. -/
def HasBody (lambda body : Node) : Prop :=
  lambda.IsFirst (Fills "body") body ∨
    lambda.HasNone (Fills "body") ∧ lambda.IsLast Counts body

/-- The expression that a function returns: its body, or the operand of the one `return` that is
all of its body. -/
inductive Returns (lambda : Node) (expr : Node) : Prop
  | expression (hbody : lambda.HasBody expr) (hkind : expr.kind ≠ "block")
  | block {body statement : Node} (hbody : lambda.HasBody body) (hkind : body.kind = "block")
      (hstatement : body.IsOnly Counts statement) (hreturn : statement.kind = "return_statement")
      (hexpr : statement.IsOnly Counts expr)

/-- A function of one parameter that returns a member of it. -/
def Selects (lambda : Node) (member : String) : Prop :=
  ∃ parameter projection target name, lambda.TakesOne parameter ∧ lambda.Returns projection ∧
    projection.kind = "member_access_expression" ∧
    projection.IsFirst (Fills "expression") target ∧ target.kind = "identifier" ∧
    target.text = parameter ∧
    projection.IsFirst (Fills "name") name ∧ name.kind = "identifier" ∧ name.text = member

end Node

open Node

variable {n c : Node}

/-- A part of a node that passes a test on its kind. -/
theorem filter_kind_eq_some_iff {x : Option Node} {kind : String} :
    x.filter (·.kind == kind) = some c ↔ x = some c ∧ c.kind = kind := by
  simp [Option.filter_eq_some_iff]

namespace LambdaShape

theorem isParameters_iff {ps : Node} : isParameters ps = true ↔ ps.CanBeParameters := by
  simp [isParameters, CanBeParameters, or_assoc]

theorem parametersOf?_eq_some_iff {lambda ps : Node} :
    parametersOf? lambda = some ps ↔ lambda.HasParameters ps := by
  have hfirst : lambda.significant.find? isParameters = some ps ↔
      lambda.IsFirst (fun d => Counts d ∧ CanBeParameters d.2) ps := by
    rw [← List.head?_filter, lambda.significant_filter_eq_pick fun c => by
      rw [isParameters_iff], head?_pick]
  rw [parametersOf?, Option.or_eq_some_iff, field?_eq_some_iff, field?_eq_none_iff, hfirst,
    HasParameters]

theorem parameterName?_eq_some_iff {parameter : Node} {name : String} :
    parameterName? parameter = some name ↔ ∃ identifier,
      parameter.IsFirst (Fills "name") identifier ∧ identifier.kind = "identifier" ∧
        identifier.text = name := by
  simp only [parameterName?, Option.map_eq_some_iff, filter_kind_eq_some_iff, field?_eq_some_iff,
    and_assoc]

/-- A parameter list has a single name if it has a single parameter. -/
theorem single?_ofList?_eq_some_iff {ps : Node} {name : String} (h : ps.kind = "parameter_list") :
    (ofList? ps).bind single? = some name ↔ ps.ListsOne name := by
  have hsingle (names : List String) :
      single? (parenthesized names) = some name ↔ names = [name] := by
    match names with
    | [] => simp [single?]
    | [_] => simp [single?]
    | _ :: _ :: _ => simp [single?]
  have hmap (ns : List Node) : ns.mapM parameterName? = some [name] ↔
      ∃ parameter, ns = [parameter] ∧ parameterName? parameter = some name := by
    match ns with
    | [] => simp
    | [_] => simp [Option.bind_eq_some_iff]
    | _ :: _ :: _ => simp [Option.bind_eq_some_iff]
  rw [ofList?, ps.significant_filter_eq_pick fun c => by rw [beq_iff_eq], Option.bind_map]
  simp only [Option.bind_eq_some_iff, Function.comp_apply, hsingle, exists_eq_right, hmap,
    pick_eq_singleton_iff, parameterName?_eq_some_iff, ListsOne, h, true_and, ← exists_and_left]

/-- The shape of a function has a single parameter if the function takes one. -/
theorem single?_of?_eq_some_iff {lambda : Node} {name : String} :
    (of? lambda).bind single? = some name ↔ lambda.TakesOne name := by
  constructor
  · intro h
    rw [of?] at h
    split at h
    next hkind =>
      rw [Option.bind_assoc, Option.bind_eq_some_iff] at h
      obtain ⟨ps, hps, hname⟩ := h
      obtain ⟨hps, hlist⟩ := filter_kind_eq_some_iff.mp hps
      exact .delegate hkind (field?_eq_some_iff.mp hps)
        ((single?_ofList?_eq_some_iff hlist).mp hname)
    next =>
      split at h
      next hkind =>
        rw [Option.bind_eq_bind, Option.bind_assoc, Option.bind_eq_some_iff] at h
        obtain ⟨ps, hps, hname⟩ := h
        have hps := parametersOf?_eq_some_iff.mp hps
        split at hname
        next hbare => exact .bare hkind hps hbare (Option.some.inj hname)
        next =>
          split at hname
          next hlist => exact .listed hkind hps ((single?_ofList?_eq_some_iff hlist).mp hname)
          next => cases hname
      next => cases h
  · intro h
    cases h with
    | bare hkind hps hbare hname =>
      simp [of?, hkind, parametersOf?_eq_some_iff.mpr hps, hbare, single?, hname]
    | listed hkind hps hlist =>
      simp [of?, hkind, parametersOf?_eq_some_iff.mpr hps, hlist.1,
        (single?_ofList?_eq_some_iff hlist.1).mpr hlist]
    | delegate hkind hps hlist =>
      rw [of?, if_pos hkind, filter_kind_eq_some_iff.mpr ⟨field?_eq_some_iff.mpr hps, hlist.1⟩]
      exact (single?_ofList?_eq_some_iff hlist.1).mpr hlist

end LambdaShape

theorem returned?_eq_some_iff {lambda expr : Node} :
    returned? lambda = some expr ↔ lambda.Returns expr := by
  have hbody (body : Node) : (lambda.field? "body").or lambda.significant.getLast? = some body ↔
      lambda.HasBody body := by
    rw [Option.or_eq_some_iff, field?_eq_some_iff, field?_eq_none_iff, getLast?_significant,
      HasBody]
  rw [returned?, Option.bind_eq_bind, Option.bind_eq_some_iff]
  constructor
  · rintro ⟨body, hb, h⟩
    have hb := (hbody body).mp hb
    split at h
    next hkind =>
      obtain ⟨statement, hstatement, h⟩ := Option.bind_eq_some_iff.mp h
      split at h
      next hreturn =>
        exact .block hb hkind (only?_significant.mp hstatement) hreturn (only?_significant.mp h)
      next => cases h
    next hkind =>
      obtain rfl := Option.some.inj h
      exact .expression hb hkind
  · intro h
    cases h with
    | expression hb hkind => exact ⟨expr, (hbody expr).mpr hb, by simp [hkind]⟩
    | @block body statement hb hkind hstatement hreturn hexpr =>
      exact ⟨body, (hbody body).mpr hb, by
        simp [hkind, only?_significant.mpr hstatement, hreturn, only?_significant.mpr hexpr]⟩

theorem selectedMember?_eq_some_iff {lambda : Node} {member : String} :
    selectedMember? lambda = some member ↔ lambda.Selects member := by
  constructor
  · intro h
    obtain ⟨shape, hshape, h⟩ := Option.bind_eq_some_iff.mp h
    obtain ⟨parameter, hparameter, h⟩ := Option.bind_eq_some_iff.mp h
    obtain ⟨projection, hprojection, h⟩ := Option.bind_eq_some_iff.mp h
    obtain ⟨target, htarget, h⟩ := Option.bind_eq_some_iff.mp h
    have htakes : lambda.TakesOne parameter :=
      LambdaShape.single?_of?_eq_some_iff.mp
        (Option.bind_eq_some_iff.mpr ⟨shape, hshape, hparameter⟩)
    obtain ⟨hreturned, haccess⟩ := filter_kind_eq_some_iff.mp hprojection
    obtain ⟨htarget, hidentifier⟩ := filter_kind_eq_some_iff.mp htarget
    split at h
    next htext =>
      obtain ⟨name, hname, h⟩ := Option.bind_eq_some_iff.mp h
      obtain ⟨hname, hnamed⟩ := filter_kind_eq_some_iff.mp hname
      exact ⟨parameter, projection, target, name, htakes, returned?_eq_some_iff.mp hreturned,
        haccess, field?_eq_some_iff.mp htarget, hidentifier, htext, field?_eq_some_iff.mp hname,
        hnamed, Option.some.inj h⟩
    next => cases h
  · rintro ⟨parameter, projection, target, name, htakes, hreturns, haccess, htarget, hidentifier,
      htext, hname, hnamed, hmember⟩
    obtain ⟨shape, hshape, hparameter⟩ :=
      Option.bind_eq_some_iff.mp (LambdaShape.single?_of?_eq_some_iff.mpr htakes)
    have hprojection := filter_kind_eq_some_iff.mpr ⟨returned?_eq_some_iff.mpr hreturns, haccess⟩
    have htarget := filter_kind_eq_some_iff.mpr ⟨field?_eq_some_iff.mpr htarget, hidentifier⟩
    have hname := filter_kind_eq_some_iff.mpr ⟨field?_eq_some_iff.mpr hname, hnamed⟩
    simp only [selectedMember?, Option.bind_eq_bind, hshape, hparameter, hprojection, htarget,
      hname, Option.bind_some, htext, if_true, hmember]
    rfl

/-! ### Symbols -/

/-- What an expression denotes: the symbol bound to its text without blanks, or, if there is none,
the extension method that a member access names. -/
inductive Model.Denotes (m : Model) (expr : Node) : Symbol → Prop
  | bound {symbol : Symbol} (h : m.binding? expr.text = some symbol) : Denotes m expr symbol
  | extension {member : Node} {name : String} {method : Method}
      (hunbound : m.binding? expr.text = none) (hkind : expr.kind = "member_access_expression")
      (hmember : expr.IsFirst (Fills "name") member) (hname : member.Names name)
      (hmethod : m.extension? name = some method) : Denotes m expr (.method method)

theorem Model.symbolOf_eq_some_iff {m : Model} {expr : Node} {symbol : Symbol} :
    m.symbolOf expr = some symbol ↔ m.Denotes expr symbol := by
  rw [symbolOf]
  constructor
  · intro h
    split at h
    next hbound =>
      obtain rfl := Option.some.inj h
      exact .bound hbound
    next hunbound =>
      split at h
      next hkind =>
        obtain ⟨member, hmember, h⟩ := Option.bind_eq_some_iff.mp h
        obtain ⟨name, hname, h⟩ := Option.bind_eq_some_iff.mp h
        obtain ⟨method, hmethod, h⟩ := Option.bind_eq_some_iff.mp h
        obtain rfl := Option.some.inj h
        exact .extension hunbound hkind (field?_eq_some_iff.mp hmember)
          (simpleName?_eq_some_iff.mp hname) hmethod
      next => cases h
  · intro h
    cases h with
    | bound hbound => rw [hbound]
    | extension hunbound hkind hmember hname hmethod =>
      simp [hunbound, hkind, field?_eq_some_iff.mpr hmember, simpleName?_eq_some_iff.mpr hname,
        hmethod]

/-! ### Calls -/

theorem calleeOf?_eq_some_iff {callee : Node} : calleeOf? n = some callee ↔
    n.kind = "invocation_expression" ∧ n.IsFirst (Fills "function") callee ∧
      callee.kind = "member_access_expression" := by
  rw [calleeOf?]
  by_cases h : n.kind = "invocation_expression"
  · rw [if_pos h, filter_kind_eq_some_iff, field?_eq_some_iff]
    simp [h]
  · simp [h]

/-- The function that a call takes is the last child that counts of its first argument. -/
theorem selectorOf?_eq_some_iff {lambda : Node} : selectorOf? n = some lambda ↔
    ∃ arguments argument, n.IsFirst (Fills "arguments") arguments ∧
      arguments.IsFirst Counts argument ∧ argument.kind = "argument" ∧
      argument.IsLast Counts lambda ∧ lambda.isAnonymousFunction = true := by
  simp only [selectorOf?, Option.bind_eq_bind, Option.bind_eq_some_iff, Option.filter_eq_some_iff,
    field?_eq_some_iff, head?_significant, getLast?_significant, beq_iff_eq]
  constructor
  · rintro ⟨arguments, harguments, argument, ⟨hargument, hkind⟩, hlast, hfunction⟩
    exact ⟨arguments, argument, harguments, hargument, hkind, hlast, hfunction⟩
  · rintro ⟨arguments, argument, harguments, hargument, hkind, hlast, hfunction⟩
    exact ⟨arguments, harguments, argument, ⟨hargument, hkind⟩, hlast, hfunction⟩

/-- Only lambdas and anonymous methods select a member of their parameter. -/
theorem Node.Selects.isAnonymousFunction {lambda : Node} {member : String}
    (h : lambda.Selects member) : lambda.isAnonymousFunction = true := by
  obtain ⟨parameter, -, -, -, htakes, -⟩ := h
  cases htakes <;> simp_all [Node.isAnonymousFunction]

/-- Components with different names leave no doubt about the view. -/
theorem Components.viewOf_eq_some_iff {components : Components}
    (hne : components.key ≠ components.value) {member : String} {view : View} :
    components.viewOf member = some view ↔ member = components.component view := by
  rw [viewOf]
  cases view with
  | keys => by_cases h : member = components.key <;> simp [h, component]
  | values =>
    by_cases h : member = components.key
    · simp [h, component, hne]
    · simp [h, component]

/-- The names that a configuration gives to the components differ, also if it gives them equal
ones. -/
theorem Components.ofNames_key_ne_value (key value : String) :
    (ofNames key value).key ≠ (ofNames key value).value := by
  rw [ofNames]
  split
  next => decide
  next h => exact h

namespace Settings

variable {s : Settings} {m : Model}

theorem isTransform_iff {callee : Node} : s.isTransform m callee = true ↔
    ∃ method, m.Denotes callee (.method method) ∧
      ∃ t ∈ s.transforms, method.name = t.name ∧ method.container = t.container := by
  have hmethod (method : Method) : (m.symbolOf callee).bind Symbol.method? = some method ↔
      m.Denotes callee (.method method) := by
    rw [← Model.symbolOf_eq_some_iff, Option.bind_eq_some_iff]
    constructor
    · rintro ⟨symbol, hsymbol, h⟩
      cases symbol <;> simp_all [Symbol.method?]
    · exact fun h => ⟨_, h, rfl⟩
  simp only [← hmethod, isTransform]
  cases (m.symbolOf callee).bind Symbol.method? <;> simp [Transform.covers]

theorem isDictionary_iff {receiver : Node} : s.isDictionary m receiver = true ↔
    ∃ symbol type, m.Denotes receiver symbol ∧ symbol.declaredType? = some type ∧
      ∃ c ∈ s.capabilities, ReflTransGen m.Implements type c := by
  simp only [← Model.symbolOf_eq_some_iff, isDictionary]
  cases m.symbolOf receiver with
  | none => simp
  | some symbol => cases h : symbol.declaredType? <;> simp [h, Model.implementsAny_iff]

/-- The node is a call that projects a dictionary onto a component. Its callee is a member access
that denotes a configured projection, the receiver denotes a symbol whose type leads to a configured
capability, and its first argument is a function that selects the component of a view. -/
inductive Projects (s : Settings) (m : Model) (n : Node) : ViewMatch → Prop
  | intro {callee receiver arguments argument lambda : Node} {method : Method} {symbol : Symbol}
      {type : QualifiedName} {view : View}
      (hcall : n.kind = "invocation_expression")
      (hcallee : n.IsFirst (Fills "function") callee)
      (haccess : callee.kind = "member_access_expression")
      (hmethod : m.Denotes callee (.method method))
      (htransform : ∃ t ∈ s.transforms, method.name = t.name ∧ method.container = t.container)
      (hreceiver : callee.IsFirst (Fills "expression") receiver)
      (hsymbol : m.Denotes receiver symbol) (htype : symbol.declaredType? = some type)
      (hcapability : ∃ c ∈ s.capabilities, ReflTransGen m.Implements type c)
      (harguments : n.IsFirst (Fills "arguments") arguments)
      (hargument : arguments.IsFirst Counts argument) (hkind : argument.kind = "argument")
      (hlambda : argument.IsLast Counts lambda)
      (hselects : lambda.Selects (s.components.component view)) :
      Projects s m n ⟨view, s.components.component view⟩

theorem match?_iff_projects (hne : s.components.key ≠ s.components.value) {found : ViewMatch} :
    s.match? m n = some found ↔ s.Projects m n found := by
  constructor
  · intro h
    obtain ⟨callee, hcallee, h⟩ := Option.bind_eq_some_iff.mp h
    obtain ⟨hcall, hcallee, haccess⟩ := calleeOf?_eq_some_iff.mp hcallee
    split at h
    next htransform =>
      obtain ⟨method, hmethod, htransform⟩ := isTransform_iff.mp htransform
      obtain ⟨receiver, hreceiver, h⟩ := Option.bind_eq_some_iff.mp h
      split at h
      next hdictionary =>
        obtain ⟨symbol, type, hsymbol, htype, hcapability⟩ := isDictionary_iff.mp hdictionary
        obtain ⟨lambda, hlambda, h⟩ := Option.bind_eq_some_iff.mp h
        obtain ⟨arguments, argument, harguments, hargument, hkind, hlambda, -⟩ :=
          selectorOf?_eq_some_iff.mp hlambda
        obtain ⟨member, hmember, h⟩ := Option.bind_eq_some_iff.mp h
        obtain ⟨view, hview, h⟩ := Option.bind_eq_some_iff.mp h
        obtain rfl := Option.some.inj h
        obtain rfl := (Components.viewOf_eq_some_iff hne).mp hview
        exact .intro hcall hcallee haccess hmethod htransform (field?_eq_some_iff.mp hreceiver)
          hsymbol htype hcapability harguments hargument hkind hlambda
          (selectedMember?_eq_some_iff.mp hmember)
      next => cases h
    next => cases h
  · rintro ⟨hcall, hcallee, haccess, hmethod, htransform, hreceiver, hsymbol, htype, hcapability,
      harguments, hargument, hkind, hlambda, hselects⟩
    have hcallee := calleeOf?_eq_some_iff.mpr ⟨hcall, hcallee, haccess⟩
    have htransform := isTransform_iff.mpr ⟨_, hmethod, htransform⟩
    have hdictionary := isDictionary_iff.mpr ⟨_, _, hsymbol, htype, hcapability⟩
    have hlambda := selectorOf?_eq_some_iff.mpr
      ⟨_, _, harguments, hargument, hkind, hlambda, hselects.isAnonymousFunction⟩
    simp only [match?, Option.bind_eq_bind, hcallee, htransform, receiverOf?,
      field?_eq_some_iff.mpr hreceiver, hdictionary, hlambda,
      selectedMember?_eq_some_iff.mpr hselects, (Components.viewOf_eq_some_iff hne).mpr rfl,
      Option.bind_some, if_true]
    rfl

/-- **The rule flags exactly the projections.** Under every configuration, model and node, the rule
matches with a view and a component if and only if the node is a call that projects a dictionary
onto that component, for which it has that view. -/
theorem match?_eq_some_iff (c : Config) (m : Model) (n : Node) (found : ViewMatch) :
    (ofConfig c).match? m n = some found ↔ (ofConfig c).Projects m n found :=
  match?_iff_projects (Components.ofNames_key_ne_value c.keyComponent c.valueComponent)

end Settings

end ViewLint
