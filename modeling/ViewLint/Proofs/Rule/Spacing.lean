import ViewLint.Proofs.Rule.Comment

/-!
# The rule does not look at spacing

Texts reach the rule in two ways. The model is asked for an expression by its text without blanks,
and a name is compared by its own text, without the trivia before it. So blanks between the tokens
of a node do not change whether it is flagged, nor do its spans.

## Main definitions

* `Node.outline`: a node with all spans and all trivia forgotten.
* `Node.BlankTrivia`: nothing but blanks stands between the tokens of a node.

## Main results

* `Node.squeeze_text_outline`: without blanks, a node reads like its outline.
* `Settings.match?_outline`: a node matches as its outline does.
* `Settings.match?_eq_of_outline_eq`: nodes with the same outline match alike.
-/

namespace ViewLint

/-! ### Texts without blanks -/

namespace Text

theorem squeeze_append (s t : String) : squeeze (s ++ t) = squeeze s ++ squeeze t := by
  rw [squeeze, squeeze, squeeze, String.toList_append, List.filter_append, String.ofList_append]

/-- Nothing is left of blanks. -/
theorem squeeze_eq_empty {s : String} (h : s.toList.all isBlank) : squeeze s = "" := by
  have hnil : s.toList.filter (!isBlank ·) = [] := by
    rw [List.filter_eq_nil_iff]
    intro c hc
    simp [List.all_eq_true.mp h c hc]
  rw [squeeze, hnil, String.ofList_nil]

end Text

/-! ### Outlines -/

namespace Node

mutual

/-- The node with the given span for every node and the given trivia before every token. -/
def respaced (span : Span) (leading : String) : Node → Node
  | .token k n _ _ text => .token k n span leading text
  | .branch k n _ cs => .branch k n span (respacedAll span leading cs)

/-- The children with the given span for every node and the given trivia before every token. -/
def respacedAll (span : Span) (leading : String) :
    List (Option String × Node) → List (Option String × Node)
  | [] => []
  | (f, n) :: cs => (f, n.respaced span leading) :: respacedAll span leading cs

end

/-- What is left of a node without spans and trivia: kinds, fields and the texts of tokens. -/
def outline (n : Node) : Node :=
  n.respaced ⟨0, 0⟩ ""

/-- The trivia before each node is made of blanks. -/
def BlankTrivia (n : Node) : Prop :=
  ∀ m ∈ n.preorder, m.lead.toList.all Text.isBlank

instance : DecidablePred BlankTrivia := fun n =>
  inferInstanceAs (Decidable (∀ m ∈ n.preorder, m.lead.toList.all Text.isBlank))

variable {n : Node}

theorem respacedAll_eq_map (span : Span) (leading : String) : ∀ cs : List Child,
    respacedAll span leading cs = cs.map fun c => (c.1, c.2.respaced span leading)
  | [] => rfl
  | (f, n) :: cs => by rw [respacedAll, respacedAll_eq_map span leading cs, List.map_cons]

@[simp] theorem kind_outline (n : Node) : n.outline.kind = n.kind := by
  cases n <;> rw [outline, respaced] <;> rfl

theorem children_outline (n : Node) :
    n.outline.children = n.children.map fun c => (c.1, c.2.outline) := by
  cases n with
  | token => rw [outline, respaced]; rfl
  | branch k nm s cs => rw [outline, respaced, children_branch, respacedAll_eq_map]; rfl

theorem field?_outline (n : Node) (name : String) :
    n.outline.field? name = (n.field? name).map outline := by
  rw [field?, children_outline, List.find?_map, Option.map_map, field?, Option.map_map]
  rfl

theorem preorder_outline (n : Node) : n.outline.preorder = n.preorder.map outline :=
  preorder_of_children children_outline n

/-- Names are tokens in a node if they are in its outline. -/
theorem namesAreTokens_outline : n.outline.NamesAreTokens ↔ n.NamesAreTokens := by
  have htoken (m : Node) : m.outline.tokenText? = m.tokenText? := by
    cases m <;> rw [outline, respaced] <;> rfl
  rw [NamesAreTokens, NamesAreTokens, preorder_outline]
  simp only [List.forall_mem_map, IsName, kind_outline, htoken]

mutual

/-- The outline of a node differs from it in spans and trivia, and in no comment. -/
theorem commented_respaced (span : Span) (leading : String) :
    ∀ n : Node, n.Commented (n.respaced span leading)
  | .token k nm s l text => by
    rw [respaced]
    exact .token k nm s span l leading text
  | .branch k nm s cs => by
    rw [respaced]
    exact .branch k nm s span (commentedAll_respacedAll span leading cs)

theorem commentedAll_respacedAll (span : Span) (leading : String) :
    ∀ cs : List (Option String × Node), CommentedAll cs (respacedAll span leading cs)
  | [] => .nil
  | (f, n) :: cs => by
    rw [respacedAll]
    exact .child f (commented_respaced span leading n) (commentedAll_respacedAll span leading cs)

end

/-! ### Blank trivia -/

theorem BlankTrivia.lead (h : n.BlankTrivia) : Text.squeeze n.lead = "" :=
  Text.squeeze_eq_empty (h n (by rw [preorder_eq_cons]; exact List.mem_cons_self ..))

theorem BlankTrivia.child {c : Child} (h : n.BlankTrivia) (hc : c ∈ n.children) :
    c.2.BlankTrivia := by
  intro m hm
  refine h m ?_
  rw [preorder_eq_cons]
  exact List.mem_cons_of_mem _ (List.mem_flatMap.mpr ⟨c, hc, hm⟩)

theorem BlankTrivia.field? {c : Node} {name : String} (h : n.BlankTrivia)
    (hc : n.field? name = some c) : c.BlankTrivia := by
  obtain ⟨d, hd, rfl⟩ := Option.map_eq_some_iff.mp hc
  exact h.child (List.mem_of_find?_eq_some hd)

/-- The trivia before a node counts for nothing. -/
theorem BlankTrivia.squeeze_fullText (h : n.BlankTrivia) :
    Text.squeeze n.fullText = Text.squeeze n.text := by
  rw [fullText_eq_lead_append_text, Text.squeeze_append, h.lead, String.empty_append]

theorem lead_outline (n : Node) : n.outline.lead = "" := by
  induction n with
  | token k nm s leading text => rfl
  | branch k nm s cs ih =>
    cases cs with
    | nil => rfl
    | cons c cs => exact ih c (List.mem_cons_self ..)

theorem blankTrivia_outline (n : Node) : n.outline.BlankTrivia := by
  intro m hm
  rw [preorder_outline] at hm
  obtain ⟨m, -, rfl⟩ := List.mem_map.mp hm
  rw [lead_outline]
  rfl

/-- Without blanks, a node reads like its outline. -/
theorem squeeze_text_outline (h : n.BlankTrivia) :
    Text.squeeze n.outline.text = Text.squeeze n.text := by
  induction n with
  | token k nm s leading text => rfl
  | branch k nm s cs ih =>
    -- The children are read with their trivia, which the whole text has before the first only.
    have hchildren (ds : List Child) (hds : ∀ c ∈ ds, c ∈ cs) :
        Text.squeeze (fullTexts (ds.map fun c => (c.1, c.2.outline))) =
          Text.squeeze (fullTexts ds) := by
      induction ds with
      | nil => rfl
      | cons c ds ihds =>
        have hc : c ∈ cs := hds c (List.mem_cons_self ..)
        have hblank : c.2.BlankTrivia := h.child hc
        rw [List.map_cons, fullTexts, fullTexts, Text.squeeze_append, Text.squeeze_append,
          (blankTrivia_outline c.2).squeeze_fullText, hblank.squeeze_fullText, ih c hc hblank,
          ihds fun d hd => hds d (List.mem_cons_of_mem c hd)]
    rw [← (blankTrivia_outline _).squeeze_fullText, ← h.squeeze_fullText, outline, respaced,
      fullText, fullText, respacedAll_eq_map]
    exact hchildren cs fun c hc => hc

end Node

open Node

variable {n n' : Node}

/-! ### The rule -/

theorem calleeOf?_outline (n : Node) : calleeOf? n.outline = (calleeOf? n).map outline := by
  rw [calleeOf?, calleeOf?, kind_outline, field?_outline]
  split
  · cases n.field? "function" with
    | none => rfl
    | some callee =>
      rw [Option.map_some, Option.filter_some, Option.filter_some, kind_outline]
      split <;> rfl
  · rfl

/-- A model binds an expression by its text without blanks. -/
theorem Model.binding?_outline (m : Model) (h : n.BlankTrivia) :
    m.binding? n.outline.text = m.binding? n.text := by
  rw [binding?, binding?, squeeze_text_outline h]

/-- A model binds the callee and the receiver of a node as those of its outline. -/
theorem Model.bindsAlike_outline (m : Model) (h : n.BlankTrivia) : m.BindsAlike n n.outline := by
  have hcallee (callee : Node) (hc : calleeOf? n = some callee) : callee.BlankTrivia := by
    rw [calleeOf?] at hc
    split at hc
    next => exact h.field? (Option.filter_eq_some_iff.mp hc).1
    next => cases hc
  constructor
  · rw [calleeOf?_outline]
    cases hc : calleeOf? n with
    | none => rfl
    | some callee =>
      simp only [Option.map_some, m.binding?_outline (hcallee callee hc)]
  · rw [calleeOf?_outline]
    cases hc : calleeOf? n with
    | none => rfl
    | some callee =>
      simp only [Option.map_some, Option.bind_some, receiverOf?, field?_outline]
      cases hr : callee.field? "expression" with
      | none => rfl
      | some receiver =>
        have hreceiver : receiver.BlankTrivia := (hcallee callee hc).field? hr
        simp only [Option.map_some, m.binding?_outline hreceiver]

namespace Settings

/-- A node matches as its outline does. -/
theorem match?_outline (s : Settings) (m : Model) (h : n.BlankTrivia) (hnames : n.NamesAreTokens) :
    s.match? m n.outline = s.match? m n :=
  s.match?_eq_of_bindsAlike ⟨commented_respaced _ _ n, hnames⟩ (m.bindsAlike_outline h)

/-- **Spacing and positions do not influence detection.** Two nodes of the same shape, with the same
kinds, fields and token texts, are flagged alike by every model, whatever their spans are and
whatever blanks stand before their tokens. -/
theorem match?_eq_of_outline_eq (s : Settings) (m : Model) (h : n.outline = n'.outline)
    (hblank : n.BlankTrivia) (hblank' : n'.BlankTrivia) (hnames : n.NamesAreTokens) :
    s.match? m n = s.match? m n' := by
  have hnames' : n'.NamesAreTokens := by
    rwa [← namesAreTokens_outline, ← h, namesAreTokens_outline]
  rw [← s.match?_outline m hblank hnames, h, s.match?_outline m hblank' hnames']

open Analyzer (ofDictionary)

/-- The call `d.Select(e=>e.Key)` is flagged with a wide blank, a tab and a line feed before each of
its tokens and with spans that run backwards; and it is not flagged, with and without these, where
a binding shadows the extension method. -/
theorem match?_eq_of_outline_eq_projection :
    let spaced : Node := projection.respaced ⟨9, 4⟩ "　\t\n"
    projection.outline = spaced.outline ∧ projection.BlankTrivia ∧ spaced.BlankTrivia ∧
      projection.NamesAreTokens ∧
      ofDictionary.settings.match? ofDictionary.model projection = some ⟨.keys, "Key"⟩ ∧
      ofDictionary.settings.match? ofDictionary.model spaced = some ⟨.keys, "Key"⟩ ∧
      ofDictionary.settings.match? Model.shadowing spaced = none := by
  intro spaced
  have houtline : projection.outline = spaced.outline := rfl
  have hblank : projection.BlankTrivia := by decide
  have hblank' : spaced.BlankTrivia := by decide
  have hnames : projection.NamesAreTokens := by decide
  have halike (m : Model) :=
    match?_eq_of_outline_eq ofDictionary.settings m houtline hblank hblank' hnames
  refine ⟨houtline, hblank, hblank', hnames, rfl, ?_, ?_⟩
  · rw [← halike]
    rfl
  · rw [← halike]
    rfl

end Settings

end ViewLint
