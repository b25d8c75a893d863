import Mathlib.Data.List.Forall2
import ViewLint.Proofs.Fix.Agreement

/-!
# Comments and the rule

The parts of a call that the rule reads are found past any comments. What a comment does change is
the text of the expression it stands in, and with it the symbol that the model binds to the
expression: a comment in a callee hides the binding of the callee, and the extension method that
the binding shadows comes to light again.

## Main definitions

* `Node.Commented`: a node with comments put among the children of its branches.
* `Model.BindsAlike`: the model binds the callees of two calls alike, and their receivers.

## Main results

* `Settings.match?_of_commented`: comments do not matter to the rule if they do not matter to the
  bindings of callee and receiver.
* `Settings.match?_of_comment_in_callee`: a comment in a callee can make a call be flagged.
-/

namespace ViewLint

/-! ### Related options and lists -/

section Related

variable {α β γ δ : Type} {R : α → β → Prop} {S : γ → δ → Prop}

theorem rel_bind {x : Option α} {y : Option β} {f : α → Option γ} {g : β → Option δ}
    (h : Option.Rel R x y) (hfg : ∀ a b, R a b → Option.Rel S (f a) (g b)) :
    Option.Rel S (x.bind f) (y.bind g) := by
  cases h with
  | none => exact .none
  | some h => exact hfg _ _ h

theorem bind_eq_of_rel {x : Option α} {y : Option β} {f : α → Option γ} {g : β → Option γ}
    (h : Option.Rel R x y) (hfg : ∀ a b, R a b → f a = g b) : x.bind f = y.bind g := by
  cases h with
  | none => rfl
  | some h => exact hfg _ _ h

theorem rel_or {x x' : Option α} {y y' : Option β} (h : Option.Rel R x y)
    (h' : Option.Rel R x' y') : Option.Rel R (x.or x') (y.or y') := by
  cases h with
  | none => exact h'
  | some h => exact .some h

theorem rel_filter {x : Option α} {y : Option β} {p : α → Bool} {q : β → Bool}
    (h : Option.Rel R x y) (hpq : ∀ a b, R a b → p a = q b) :
    Option.Rel R (x.filter p) (y.filter q) := by
  cases h with
  | none => exact .none
  | some h =>
    rw [Option.filter_some, Option.filter_some, hpq _ _ h]
    split
    · exact .some h
    · exact .none

theorem rel_find? {xs : List α} {ys : List β} {p : α → Bool} {q : β → Bool}
    (h : List.Forall₂ R xs ys) (hpq : ∀ a b, R a b → p a = q b) :
    Option.Rel R (xs.find? p) (ys.find? q) := by
  induction h with
  | nil => exact .none
  | cons h _ ih =>
    rw [List.find?_cons, List.find?_cons, hpq _ _ h]
    split
    · exact .some h
    · exact ih

theorem rel_head? {xs : List α} {ys : List β} (h : List.Forall₂ R xs ys) :
    Option.Rel R xs.head? ys.head? := by
  cases h with
  | nil => exact .none
  | cons h _ => exact .some h

theorem rel_getLast? {xs : List α} {ys : List β} (h : List.Forall₂ R xs ys) :
    Option.Rel R xs.getLast? ys.getLast? := by
  rw [List.getLast?_eq_head?_reverse, List.getLast?_eq_head?_reverse]
  exact rel_head? (List.rel_reverse h)

theorem rel_only? {xs : List α} {ys : List β} (h : List.Forall₂ R xs ys) :
    Option.Rel R (only? xs) (only? ys) := by
  match h with
  | .nil => exact .none
  | .cons h .nil => exact .some h
  | .cons _ (.cons _ _) => exact .none

theorem mapM_eq_of_forall₂ {xs : List α} {ys : List β} {f : α → Option γ} {g : β → Option γ}
    (h : List.Forall₂ R xs ys) (hfg : ∀ a b, R a b → f a = g b) : xs.mapM f = ys.mapM g := by
  induction h with
  | nil => rfl
  | cons h _ ih => rw [List.mapM_cons, List.mapM_cons, hfg _ _ h, ih]

end Related

/-! ### Inserted comments -/

namespace Node

mutual

/-- The second node is the first with comments put among the children of branches. Spans and
trivia may differ. -/
inductive Commented : Node → Node → Prop
  | token (k : String) (nm : Bool) (s s' : Span) (leading leading' text : String) :
      Commented (.token k nm s leading text) (.token k nm s' leading' text)
  | branch (k : String) (nm : Bool) (s s' : Span) {cs cs' : List (Option String × Node)}
      (h : CommentedAll cs cs') : Commented (.branch k nm s cs) (.branch k nm s' cs')

/-- The second children are the first with comments, which fill no field, among and below them. -/
inductive CommentedAll : List (Option String × Node) → List (Option String × Node) → Prop
  | nil : CommentedAll [] []
  | child (f : Option String) {n n' : Node} {cs cs' : List (Option String × Node)}
      (h : Commented n n') (hs : CommentedAll cs cs') :
      CommentedAll ((f, n) :: cs) ((f, n') :: cs')
  | comment (s : Span) (leading text : String) {cs cs' : List (Option String × Node)}
      (hs : CommentedAll cs cs') :
      CommentedAll cs ((none, .token "comment" true s leading text) :: cs')

end

mutual

theorem Commented.refl : ∀ n : Node, n.Commented n
  | .token k nm s leading text => .token k nm s s leading leading text
  | .branch k nm s cs => .branch k nm s s (CommentedAll.refl cs)

theorem CommentedAll.refl : ∀ cs : List (Option String × Node), CommentedAll cs cs
  | [] => .nil
  | (f, n) :: cs => .child f (Commented.refl n) (CommentedAll.refl cs)

end

mutual

/-- The node with a comment after each child of each branch. -/
def annotated : Node → Node
  | .token k nm s leading text => .token k nm s leading text
  | .branch k nm s cs => .branch k nm s (annotatedAll cs)

/-- The children with a comment after each, and with the comments below them. -/
def annotatedAll : List (Option String × Node) → List (Option String × Node)
  | [] => []
  | (f, n) :: cs =>
    (f, n.annotated) :: (none, .token "comment" true ⟨0, 0⟩ "" "/*c*/") :: annotatedAll cs

end

mutual

theorem commented_annotated : ∀ n : Node, n.Commented n.annotated
  | .token k nm s leading text => .refl _
  | .branch k nm s cs => by
    rw [annotated]
    exact .branch k nm s s (commentedAll_annotatedAll cs)

theorem commentedAll_annotatedAll :
    ∀ cs : List (Option String × Node), CommentedAll cs (annotatedAll cs)
  | [] => .nil
  | (f, n) :: cs => by
    rw [annotatedAll]
    exact .child f (commented_annotated n) (.comment _ _ _ (commentedAll_annotatedAll cs))

end

/-- The kinds of node that name something by their text. -/
def IsName (n : Node) : Prop :=
  n.kind = "identifier" ∨ n.kind = "implicit_parameter"

instance : DecidablePred IsName := fun n =>
  inferInstanceAs (Decidable (n.kind = "identifier" ∨ n.kind = "implicit_parameter"))

/-- Names are leaves, so that no comment can stand inside of one. -/
def NamesAreTokens (n : Node) : Prop :=
  ∀ m ∈ n.preorder, m.IsName → m.tokenText?.isSome

instance : DecidablePred NamesAreTokens := fun n =>
  inferInstanceAs (Decidable (∀ m ∈ n.preorder, m.IsName → m.tokenText?.isSome))

/-- Two nodes that differ in comments, and not in names. -/
structure SameButComments (n n' : Node) : Prop where
  commented : n.Commented n'
  names : n.NamesAreTokens

theorem NamesAreTokens.child {n : Node} {c : Child} (h : n.NamesAreTokens)
    (hc : c ∈ n.children) : c.2.NamesAreTokens := by
  intro m hm
  refine h m ?_
  rw [preorder_eq_cons]
  exact List.mem_cons_of_mem _ (List.mem_flatMap.mpr ⟨c, hc, hm⟩)

theorem Commented.kind_eq {n n' : Node} (h : n.Commented n') : n.kind = n'.kind := by
  cases h <;> rfl

theorem Commented.named_eq {n n' : Node} (h : n.Commented n') : n.named = n'.named := by
  cases h <;> rfl

theorem Commented.children {n n' : Node} (h : n.Commented n') :
    CommentedAll n.children n'.children := by
  cases h with
  | token => exact .nil
  | branch k nm s s' h => exact h

/-- A search that passes over comments finds the same child with and without them. -/
theorem CommentedAll.find? {p : Child → Bool}
    (hp : ∀ f n n', Commented n n' → p (f, n) = p (f, n'))
    (hcomment : ∀ s leading text, p (none, .token "comment" true s leading text) = false) :
    ∀ {cs cs' : List Child}, CommentedAll cs cs' → (∀ c ∈ cs, c.2.NamesAreTokens) →
      Option.Rel SameButComments ((cs.find? p).map (·.2)) ((cs'.find? p).map (·.2))
  | _, _, .nil, _ => .none
  | _, _, @CommentedAll.child f n n' _ _ h hs, hnames => by
    rw [List.find?_cons, List.find?_cons, hp f n n' h]
    split
    · exact .some ⟨h, hnames (f, n) (List.mem_cons_self ..)⟩
    · exact hs.find? hp hcomment fun c hc => hnames c (List.mem_cons_of_mem _ hc)
  | _, _, .comment s leading text hs, hnames => by
    rw [List.find?_cons_of_neg (by rw [hcomment]; exact Bool.false_ne_true)]
    exact hs.find? hp hcomment hnames

/-- The children that count are the same with and without comments. -/
theorem CommentedAll.significant {p : Node → Bool} (hp : ∀ n n', Commented n n' → p n = p n')
    (hcomment : ∀ s leading text, p (.token "comment" true s leading text) = false) :
    ∀ {cs cs' : List Child}, CommentedAll cs cs' → (∀ c ∈ cs, c.2.NamesAreTokens) →
      List.Forall₂ SameButComments ((cs.map (·.2)).filter p) ((cs'.map (·.2)).filter p)
  | _, _, .nil, _ => .nil
  | _, _, @CommentedAll.child f n n' _ _ h hs, hnames => by
    have htail := hs.significant hp hcomment fun c hc => hnames c (List.mem_cons_of_mem _ hc)
    rw [List.map_cons, List.map_cons, List.filter_cons, List.filter_cons, hp n n' h]
    split
    · exact .cons ⟨h, hnames (f, n) (List.mem_cons_self ..)⟩ htail
    · exact htail
  | _, _, .comment s leading text hs, hnames => by
    rw [List.map_cons, List.filter_cons_of_neg (by rw [hcomment]; exact Bool.false_ne_true)]
    exact hs.significant hp hcomment hnames

/-- The first identifier among some children is an identifier. -/
theorem map_text_find?_identifier (cs : List Child) :
    (cs.find? fun c => c.2.kind == "identifier").map (·.2.text) =
      (((cs.find? fun c => c.2.kind == "identifier").map (·.2)).filter
        (·.kind == "identifier")).bind fun m => some m.text := by
  cases h : cs.find? fun c => c.2.kind == "identifier" with
  | none => rfl
  | some c =>
    rw [Option.map_some, Option.map_some, Option.filter_some, if_pos (List.find?_some h)]
    rfl

namespace SameButComments

variable {n n' : Node}

theorem kind_eq (h : n.SameButComments n') : n.kind = n'.kind :=
  h.commented.kind_eq

/-- Names keep their texts. -/
theorem text_eq (h : n.SameButComments n') (hname : n.IsName) : n.text = n'.text := by
  obtain ⟨hcommented, hnames⟩ := h
  have htoken := hnames n (by rw [preorder_eq_cons]; exact List.mem_cons_self ..) hname
  cases hcommented with
  | token => rfl
  | branch =>
    -- A comment among the children would be part of the text, but names have no children.
    simp [tokenText?] at htoken

theorem field? (h : n.SameButComments n') (name : String) :
    Option.Rel SameButComments (n.field? name) (n'.field? name) :=
  h.commented.children.find? (fun _ _ _ _ => rfl) (fun _ _ _ => rfl) fun _ => h.names.child

theorem significant (h : n.SameButComments n') :
    List.Forall₂ SameButComments n.significant n'.significant :=
  h.commented.children.significant (fun _ _ h => by rw [h.kind_eq, h.named_eq])
    (fun _ _ _ => rfl) fun _ => h.names.child

/-- Identifiers that are found in the same place have the same text. -/
theorem rel_identifier {x x' : Option Node} (h : Option.Rel SameButComments x x') :
    Option.Rel (fun m m' => m.text = m'.text) (x.filter (·.kind == "identifier"))
      (x'.filter (·.kind == "identifier")) := by
  cases h with
  | none => exact .none
  | some h =>
    rw [Option.filter_some, Option.filter_some, ← h.kind_eq]
    split
    next hkind => exact .some (h.text_eq (.inl (beq_iff_eq.mp hkind)))
    next => exact .none

theorem simpleName?_eq (h : n.SameButComments n') : n.simpleName? = n'.simpleName? := by
  have hfirst : Option.Rel SameButComments _ _ :=
    h.commented.children.find? (p := fun c => c.2.kind == "identifier")
      (fun _ _ _ h => by rw [h.kind_eq]) (fun _ _ _ => rfl) fun _ => h.names.child
  rw [simpleName?, simpleName?, ← h.kind_eq]
  split
  next hkind => rw [h.text_eq (.inl hkind)]
  next =>
    split
    next =>
      rw [map_text_find?_identifier, map_text_find?_identifier]
      exact bind_eq_of_rel (rel_identifier hfirst) fun _ _ h => congrArg some h
    next => rfl

end SameButComments

end Node

/-! ### Anonymous functions -/

variable {n n' : Node}

open Node

namespace LambdaShape

theorem parameterName?_eq (h : n.SameButComments n') : parameterName? n = parameterName? n' := by
  rw [parameterName?, parameterName?, Option.map_eq_bind, Option.map_eq_bind]
  exact bind_eq_of_rel (SameButComments.rel_identifier (h.field? "name")) fun _ _ h => by
    rw [Function.comp_apply, Function.comp_apply, h]

theorem ofList?_eq (h : n.SameButComments n') : ofList? n = ofList? n' := by
  have hparameters := List.rel_filter (p := (·.kind == "parameter")) (q := (·.kind == "parameter"))
    (fun _ _ h => by simp only [h.kind_eq]) h.significant
  rw [ofList?, ofList?, mapM_eq_of_forall₂ hparameters fun _ _ => parameterName?_eq]

theorem rel_parametersOf? (h : n.SameButComments n') :
    Option.Rel SameButComments (parametersOf? n) (parametersOf? n') :=
  rel_or (h.field? "parameters") (rel_find? h.significant fun a b h => by
    rw [isParameters, isParameters, h.kind_eq])

theorem of?_eq (h : n.SameButComments n') : of? n = of? n' := by
  rw [of?, of?, h.kind_eq]
  split
  next =>
    exact bind_eq_of_rel (rel_filter (h.field? "parameters") fun _ _ h => by rw [h.kind_eq])
      fun _ _ => ofList?_eq
  next =>
    split
    next =>
      refine bind_eq_of_rel (rel_parametersOf? h) ?_
      intro parameters parameters' hparameters
      rw [← hparameters.kind_eq]
      split
      next hname => rw [hparameters.text_eq hname.symm]
      next => rw [ofList?_eq hparameters]
    next => rfl

end LambdaShape

theorem rel_returned? (h : n.SameButComments n') :
    Option.Rel SameButComments (returned? n) (returned? n') := by
  refine rel_bind (rel_or (h.field? "body") (rel_getLast? h.significant)) ?_
  intro body body' hbody
  rw [hbody.kind_eq]
  split
  · refine rel_bind (rel_only? hbody.significant) ?_
    intro statement statement' hstatement
    rw [hstatement.kind_eq]
    split
    · exact rel_only? hstatement.significant
    · exact .none
  · exact .some hbody

/-! ### The parts of a call -/

theorem rel_calleeOf? (h : n.SameButComments n') :
    Option.Rel SameButComments (calleeOf? n) (calleeOf? n') := by
  rw [calleeOf?, calleeOf?, h.kind_eq]
  split
  · exact rel_filter (h.field? "function") fun _ _ h => by rw [h.kind_eq]
  · exact .none

theorem rel_receiverOf? (h : n.SameButComments n') :
    Option.Rel SameButComments (receiverOf? n) (receiverOf? n') :=
  h.field? "expression"

theorem rel_selectorOf? (h : n.SameButComments n') :
    Option.Rel SameButComments (selectorOf? n) (selectorOf? n') := by
  refine rel_bind (h.field? "arguments") ?_
  intro arguments arguments' harguments
  refine rel_bind (rel_filter (rel_head? harguments.significant) fun _ _ h => by
    rw [h.kind_eq]) ?_
  intro argument argument' hargument
  exact rel_filter (rel_getLast? hargument.significant) fun _ _ h => by
    rw [isAnonymousFunction, isAnonymousFunction, h.kind_eq]

theorem selectedMember?_eq (h : n.SameButComments n') :
    selectedMember? n = selectedMember? n' := by
  rw [selectedMember?, selectedMember?, LambdaShape.of?_eq h]
  refine congrArg _ (funext fun shape => congrArg _ (funext fun parameter => ?_))
  refine bind_eq_of_rel (rel_filter (rel_returned? h) fun _ _ h => by rw [h.kind_eq]) ?_
  intro projection projection' hprojection
  refine bind_eq_of_rel (SameButComments.rel_identifier (hprojection.field? "expression")) ?_
  intro target target' htarget
  rw [htarget]
  split
  · exact bind_eq_of_rel (SameButComments.rel_identifier (hprojection.field? "name")) fun _ _ h => by
      rw [h]
  · rfl

/-! ### Symbols -/

/-- A model denotes by an expression what it does without the comments, if it binds both alike. -/
theorem symbolOf_eq {m : Model} (h : n.SameButComments n')
    (hbinding : m.binding? n.text = m.binding? n'.text) : m.symbolOf n = m.symbolOf n' := by
  have hextension : (n.field? "name").bind (fun member => member.simpleName?.bind fun name =>
      (m.extension? name).bind fun method => some (Symbol.method method)) =
      (n'.field? "name").bind fun member => member.simpleName?.bind fun name =>
        (m.extension? name).bind fun method => some (.method method) :=
    bind_eq_of_rel (h.field? "name") fun _ _ h => by rw [h.simpleName?_eq]
  rw [Model.symbolOf, Model.symbolOf, hbinding, h.kind_eq]
  split
  · rfl
  · split
    · exact hextension
    · rfl

/-- The model binds the callees of two calls alike, and the receivers of these. -/
structure Model.BindsAlike (m : Model) (n n' : Node) : Prop where
  callee : (calleeOf? n).map (fun callee => m.binding? callee.text) =
    (calleeOf? n').map fun callee => m.binding? callee.text
  receiver : ((calleeOf? n).bind receiverOf?).map (fun receiver => m.binding? receiver.text) =
    ((calleeOf? n').bind receiverOf?).map fun receiver => m.binding? receiver.text

/-- A model binds equal callees alike. -/
theorem Model.bindsAlike_of_bare_eq (m : Model)
    (h : (calleeOf? n).map bare = (calleeOf? n').map bare) : m.BindsAlike n n' := by
  have hbinding (x : Option Node) : x.map (fun c => m.binding? c.text) =
      (x.map bare).map fun c => m.binding? c.text := by
    rw [Option.map_map]
    congr 1
    funext c
    rw [Function.comp_apply, text_bare]
  have hreceiver (x : Option Node) : (x.bind receiverOf?).map bare =
      (x.map bare).bind receiverOf? := by
    cases x with
    | none => rfl
    | some callee => exact (receiverOf?_bare callee).symm
  constructor
  · rw [hbinding, h, ← hbinding]
  · rw [hbinding, hreceiver, h, ← hreceiver, ← hbinding]

/-- Knows `d` as a dictionary, `Select` as a projection, and `d.Select` as another method. -/
def Model.shadowing : Model :=
  Analyzer.ofDictionary.model.bind "d.Select" (.method ⟨"Select", ⟨"App", "Queries"⟩, none⟩)

namespace Settings

/-- A call is flagged with and without comments alike, if the model binds callee and receiver
alike. -/
theorem match?_eq_of_bindsAlike (s : Settings) {m : Model} (h : n.SameButComments n')
    (hbind : m.BindsAlike n n') : s.match? m n' = s.match? m n := by
  -- The model is asked about two nodes only, callee and receiver, and both times by their texts.
  have hcallee := rel_calleeOf? h
  obtain ⟨hbound, hbound'⟩ := hbind
  rw [match?, match?]
  generalize calleeOf? n = callee?, calleeOf? n' = callee?' at hcallee hbound hbound' ⊢
  cases hcallee with
  | none => rfl
  | @some callee callee' hcallee =>
    have hreceiver := rel_receiverOf? hcallee
    have htransform : s.isTransform m callee = s.isTransform m callee' := by
      rw [isTransform, isTransform, symbolOf_eq hcallee (Option.some.inj hbound)]
    simp only [Option.bind_eq_bind, Option.bind_some, htransform] at hbound' ⊢
    generalize receiverOf? callee = receiver?, receiverOf? callee' = receiver?'
      at hreceiver hbound' ⊢
    cases hreceiver with
    | none => rfl
    | @some receiver receiver' hreceiver =>
      have hdictionary : s.isDictionary m receiver = s.isDictionary m receiver' := by
        rw [isDictionary, isDictionary, symbolOf_eq hreceiver (Option.some.inj hbound')]
      simp only [Option.bind_some, hdictionary]
      rw [bind_eq_of_rel (rel_selectorOf? h) fun _ _ h => by rw [selectedMember?_eq h]]

/-- **Comments matter through bindings only.** Comments put anywhere into a node do not change
whether it is flagged, and with which view, if the model binds the callee and the receiver as it
does without them. So comments outside of the callee do not matter to any model. -/
theorem match?_of_commented (h : n.Commented n') (hnames : n.NamesAreTokens) :
    (∀ (s : Settings) (m : Model), m.BindsAlike n n' → s.match? m n' = s.match? m n) ∧
    ((calleeOf? n).map bare = (calleeOf? n').map bare →
      ∀ (s : Settings) (m : Model), s.match? m n' = s.match? m n) :=
  ⟨fun s _ => s.match?_eq_of_bindsAlike ⟨h, hnames⟩,
    fun hcallee s m => s.match?_eq_of_bindsAlike ⟨h, hnames⟩ (m.bindsAlike_of_bare_eq hcallee)⟩

open Analyzer (ofDictionary)

/-- Comments in the callee `d.Select` do not matter where it is not bound, and comments in the
arguments do not matter where it is. -/
theorem match?_of_commented_projection :
    let arguments : Node := (projection.field? "arguments").getD projection
    let commented : Node := (projection.replaceAt [1] arguments.annotated).getD projection
    projection.NamesAreTokens ∧ projection.Commented projection.annotated ∧
      ofDictionary.model.BindsAlike projection projection.annotated ∧
      ofDictionary.settings.match? ofDictionary.model projection.annotated =
        some ⟨.keys, "Key"⟩ ∧
      projection.Commented commented ∧
      ofDictionary.settings.match? Model.shadowing commented = none := by
  intro arguments commented
  have hnames : projection.NamesAreTokens := by decide
  have hall := commented_annotated projection
  have hbind : ofDictionary.model.BindsAlike projection projection.annotated := ⟨rfl, rfl⟩
  have hsome : projection.Commented commented :=
    .branch _ _ _ _ (.child _ (.refl _) (.child _ (commented_annotated arguments) .nil))
  refine ⟨hnames, hall, hbind, ?_, hsome, ?_⟩
  · rw [(match?_of_commented hall hnames).1 _ _ hbind]
    rfl
  · rw [(match?_of_commented hsome hnames).2 rfl]
    rfl

/-- **A comment can make a call be flagged.** The binding of `d.Select` shadows the extension
method, so the call `d.Select(e=>e.Key)` is not flagged; with comments in the callee the binding is
not found, and the call is flagged. -/
theorem match?_of_comment_in_callee :
    projection.Commented projection.annotated ∧ projection.NamesAreTokens ∧
      ofDictionary.settings.match? Model.shadowing projection.annotated = some ⟨.keys, "Key"⟩ ∧
      ofDictionary.settings.match? Model.shadowing projection = none :=
  ⟨commented_annotated projection, by decide, rfl, rfl⟩

end Settings

end ViewLint
