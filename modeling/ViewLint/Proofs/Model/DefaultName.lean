import Mathlib.Data.List.Infix
import ViewLint.Model.File
import ViewLint.Proofs.Model.Additions
import ViewLint.Proofs.Text.Cut

/-!
# Names of symbols that are declared without one

A symbol of a model file that has no name is named by its expression. An expression may end in an
identifier or in a call of one, after a receiver or not. If the receiver has no parenthesis, this
identifier is the name. If it has one, as in `c.Get(1).Inner`, the name is what stands before the
first parenthesis: the identifier of the first call, not the last identifier.

## Main definitions

* `Model.IsSplit`: the parts of an expression around what stands before its first parenthesis.
* `Model.FirstCalled`: what stands before the first parenthesis of an expression that has one.
* `Model.Reference`: an expression that ends in an identifier or in a call of one.

## Main results

* `Model.defaultName_of_isSplit`: the name that an expression gives.
* `Model.Reference.defaultName_text_iff`: the name that a reference gives.
* `Model.Reference.bound_name_iff`: the name of the symbol that a file binds to a reference.
-/

namespace ViewLint

/-- The name that a symbol has of its own. A type used as an expression has none. -/
def Symbol.name? : Symbol → Option String
  | .value _ name _ => some name
  | .method m => some m.name
  | .type _ => none
  | .namespaceName name => some name

namespace Model

open Text

/-! ### The name before the first parenthesis -/

/-- The parts of an expression: up to the last dot before the first parenthesis, from there up to
this parenthesis, and the rest. The first part is empty if there is no such dot, and the third if
there is no parenthesis. -/
structure IsSplit (front last rest : List Char) : Prop where
  front_dot : ∀ c ∈ front.getLast?, c = '.'
  no_dot : '.' ∉ last
  no_paren : '(' ∉ front ++ last
  rest_paren : ∀ c ∈ rest.head?, c = '('

namespace IsSplit

variable {front last rest ds : List Char}

/-- A dot in front of an expression joins the first part. -/
theorem cons_dot (h : IsSplit front last rest) : IsSplit ('.' :: front) last rest where
  front_dot := by
    intro c hc
    cases hlast : front.getLast? with
    | none => simpa [List.getLast?_cons, hlast, eq_comm] using hc
    | some d => exact h.front_dot c (by simpa [List.getLast?_cons, hlast] using hc)
  no_dot := h.no_dot
  no_paren := by simpa using h.no_paren
  rest_paren := h.rest_paren

/-- Other text in front of an expression joins the first part, or the second if the first is
empty. -/
theorem prepend (h : IsSplit front last rest) (hdot : '.' ∉ ds) (hparen : '(' ∉ ds) :
    ∃ front' last', ds ++ (front ++ last ++ rest) = front' ++ last' ++ rest ∧
      IsSplit front' last' rest ∧ (last' = last ∨ last' = ds ++ last) := by
  have hno : '(' ∉ ds ++ (front ++ last) := by
    rw [List.mem_append, not_or]
    exact ⟨hparen, h.no_paren⟩
  cases hlast : front.getLast? with
  | none =>
    rw [List.getLast?_eq_none_iff] at hlast
    subst hlast
    refine ⟨[], ds ++ last, by simp, ⟨by simp, ?_, hno, h.rest_paren⟩, Or.inr rfl⟩
    rw [List.mem_append, not_or]
    exact ⟨hdot, h.no_dot⟩
  | some d =>
    refine ⟨ds ++ front, last, by simp, ⟨?_, h.no_dot, by simpa using hno, h.rest_paren⟩,
      Or.inl rfl⟩
    intro c hc
    exact h.front_dot c (by simpa [List.getLast?_append, hlast] using hc)

/-- Text after an expression joins the third part, or the second if the third is empty. -/
theorem append (h : IsSplit front last rest) (hdot : '.' ∉ ds) (hparen : '(' ∉ ds) :
    ∃ last' rest', front ++ last ++ rest ++ ds = front ++ last' ++ rest' ∧
      IsSplit front last' rest' ∧ (last' = last ∨ last' = last ++ ds) := by
  cases rest with
  | nil =>
    refine ⟨last ++ ds, [], by simp, ⟨h.front_dot, ?_, ?_, by simp⟩, Or.inr rfl⟩
    · rw [List.mem_append, not_or]
      exact ⟨h.no_dot, hdot⟩
    · rw [← List.append_assoc, List.mem_append, not_or]
      exact ⟨h.no_paren, hparen⟩
  | cons c rest =>
    exact ⟨last, c :: (rest ++ ds), by simp,
      ⟨h.front_dot, h.no_dot, h.no_paren, h.rest_paren⟩, Or.inl rfl⟩

/-- A parenthesis after an expression joins the third part. -/
theorem append_paren (h : IsSplit front last rest) (ds : List Char) :
    IsSplit front last (rest ++ '(' :: ds) where
  front_dot := h.front_dot
  no_dot := h.no_dot
  no_paren := h.no_paren
  rest_paren := by
    intro c hc
    cases rest with
    | nil => simpa [eq_comm] using hc
    | cons d rest => exact h.rest_paren c (by simpa using hc)

end IsSplit

/-- Every expression has these parts. -/
theorem exists_isSplit (cs : List Char) :
    ∃ front last rest, cs = front ++ last ++ rest ∧ IsSplit front last rest := by
  induction cs with
  | nil => exact ⟨[], [], [], rfl, by simp, by simp, by simp, by simp⟩
  | cons c cs ih =>
    obtain ⟨front, last, rest, rfl, h⟩ := ih
    by_cases hparen : c = '('
    · exact ⟨[], [], c :: (front ++ last ++ rest), rfl, by simp, by simp, by simp,
        by simpa using hparen⟩
    · by_cases hdot : c = '.'
      · subst hdot
        exact ⟨'.' :: front, last, rest, rfl, h.cons_dot⟩
      · have hdot' : '.' ∉ [c] := by simpa using Ne.symm hdot
        have hparen' : '(' ∉ [c] := by simpa using Ne.symm hparen
        obtain ⟨front', last', hcs, h', -⟩ := h.prepend hdot' hparen'
        exact ⟨front', last', rest, hcs, h'⟩

/-- What stands before the first parenthesis and after the last dot before it, without blanks. -/
def firstName (cs : List Char) : List Char :=
  let callee := cs.takeWhile (· != '(')
  trim (match cutLast '.' callee with
    | some (_, last) => last
    | none => callee)

theorem takeWhile_of_isSplit {front last rest : List Char} (h : IsSplit front last rest) :
    (front ++ last ++ rest).takeWhile (· != '(') = front ++ last := by
  have hno : ∀ c ∈ front ++ last, (c != '(') = true := by
    intro c hc
    rw [bne_iff_ne]
    rintro rfl
    exact h.no_paren hc
  rw [List.takeWhile_append_of_pos hno]
  cases rest with
  | nil => simp
  | cons c rest => rw [List.takeWhile_cons_of_neg (by simp [h.rest_paren c rfl]), List.append_nil]

/-- The name is the second part without the blanks around it. -/
theorem firstName_of_isSplit {front last rest : List Char} (h : IsSplit front last rest) :
    firstName (front ++ last ++ rest) = trim last := by
  rw [firstName, takeWhile_of_isSplit h]
  rcases List.eq_nil_or_concat front with rfl | ⟨before, c, rfl⟩
  · rw [List.nil_append, cutLast_eq_none h.no_dot]
  · rw [List.concat_eq_append] at h ⊢
    have hc : c = '.' := h.front_dot c (by simp)
    rw [hc, List.append_assoc, List.singleton_append, cutLast_append_cons h.no_dot]

/-- Blanks around an expression do not count. -/
theorem firstName_trim (cs : List Char) : firstName (trim cs) = firstName cs := by
  have hplain : ∀ {blanks : List Char}, (∀ c ∈ blanks, isBlank c = true) →
      '.' ∉ blanks ∧ '(' ∉ blanks :=
    fun h => ⟨fun hc => absurd (h _ hc) (by decide), fun hc => absurd (h _ hc) (by decide)⟩
  obtain ⟨before, after, hbefore, hafter, hcs⟩ := exists_blanks_trim cs
  obtain ⟨front, last, rest, htrim, h⟩ := exists_isSplit (trim cs)
  -- The blanks on either side join the part next to them. Where this is the name, they are trimmed.
  obtain ⟨last₁, rest₁, h₁, hsplit₁, hlast₁⟩ := h.append (hplain hafter).1 (hplain hafter).2
  obtain ⟨front₂, last₂, h₂, hsplit₂, hlast₂⟩ :=
    hsplit₁.prepend (hplain hbefore).1 (hplain hbefore).2
  have hname₁ : trim last₁ = trim last := by
    rcases hlast₁ with rfl | rfl
    · rfl
    · exact trim_append_blanks hafter last
  have hname₂ : trim last₂ = trim last₁ := by
    rcases hlast₂ with rfl | rfl
    · rfl
    · exact trim_blanks_append hbefore last₁
  have hname : firstName cs = trim last := by
    rw [hcs, htrim, h₁, h₂, firstName_of_isSplit hsplit₂, hname₂, hname₁]
  rw [htrim, firstName_of_isSplit h, hname]

/-- Calls without arguments at the end do not count. -/
theorem firstName_dropTails (cs : List Char) :
    firstName (dropTails ['(', ')'] cs) = firstName cs := by
  refine apply_dropTails (fun text => ?_) cs
  obtain ⟨front, last, rest, rfl, h⟩ := exists_isSplit text
  rw [List.append_assoc, firstName_of_isSplit (h.append_paren [')']), firstName_of_isSplit h]

/-- Of the cuts that an expression is put through, those at the first parenthesis and at the last
dot before it make the name. -/
theorem defaultName_eq (expr : String) :
    defaultName expr = String.ofList (firstName expr.toList) := by
  rw [← firstName_trim, ← firstName_dropTails]
  rfl

/-! ### References -/

/-- The expression has a parenthesis, and `name` stands before the first one: after the last dot
before it, or at the start, and without the blanks around it. -/
def FirstCalled (expr name : List Char) : Prop :=
  ∃ front last inside, expr = front ++ last ++ '(' :: inside ∧
    IsSplit front last ('(' :: inside) ∧ name = trim last

/-- Every parenthesis has its partner. -/
def IsBalanced (cs : List Char) : Prop :=
  cs.count '(' = cs.count ')' ∧ ∀ p, p <+: cs → p.count ')' ≤ p.count '('

instance (cs : List Char) : Decidable (IsBalanced cs) :=
  decidable_of_iff (cs.count '(' = cs.count ')' ∧ ∀ p ∈ cs.inits, p.count ')' ≤ p.count '(') (by
    simp only [List.mem_inits, IsBalanced])

/-- A character that can stand in an identifier: no dot, no parenthesis, no blank. -/
def inIdentifier (c : Char) : Bool :=
  c != '.' && c != '(' && !isBlank c

/-- An expression that ends in an identifier or in a call of one: `N`, `E.N`, `N(args)` or
`E.N(args)`. -/
structure Reference where
  receiver? : Option (List Char)
  name : List Char
  arguments? : Option (List Char)
  isIdentifier : name.all inIdentifier = true

namespace Reference

variable (r : Reference)

/-- The receiver with the dot after it. -/
def front : List Char :=
  match r.receiver? with
  | some receiver => receiver ++ ['.']
  | none => []

/-- The arguments in their parentheses. -/
def call : List Char :=
  match r.arguments? with
  | some arguments => '(' :: (arguments ++ [')'])
  | none => []

def chars : List Char :=
  r.front ++ r.name ++ r.call

def text : String :=
  String.ofList r.chars

/-- No parenthesis stands in the receiver. -/
def IsDirect : Prop :=
  ∀ receiver ∈ r.receiver?, '(' ∉ receiver

theorem trim_name : trim r.name = r.name := by
  refine (Tight.of_forall fun c hc => ?_).trim_eq
  have hplain := List.all_eq_true.mp r.isIdentifier c hc
  simp only [inIdentifier, Bool.and_eq_true, Bool.not_eq_true'] at hplain
  exact hplain.2

variable {r}

/-- The identifier of a direct reference stands before the first parenthesis. -/
theorem IsDirect.isSplit (h : r.IsDirect) : IsSplit r.front r.name r.call where
  front_dot := by
    rw [front]
    split <;> simp [eq_comm]
  no_dot := by
    intro hdot
    exact absurd (List.all_eq_true.mp r.isIdentifier _ hdot) (by decide)
  no_paren := by
    rw [List.mem_append, not_or]
    constructor
    · rw [front]
      split
      next receiver hreceiver => simpa using h receiver hreceiver
      next => exact List.not_mem_nil
    · intro hparen
      exact absurd (List.all_eq_true.mp r.isIdentifier _ hparen) (by decide)
  rest_paren := by
    rw [call]
    split <;> simp [eq_comm]

theorem IsDirect.firstName_chars (h : r.IsDirect) : firstName r.chars = r.name := by
  rw [chars, firstName_of_isSplit h.isSplit, r.trim_name]

/-- What is called first in the receiver is called first in the reference. -/
theorem firstName_chars_of_firstCalled {receiver name : List Char} (hr : receiver ∈ r.receiver?)
    (h : FirstCalled receiver name) : firstName r.chars = name := by
  obtain ⟨front, last, inside, rfl, hsplit, rfl⟩ := h
  have hchars : r.chars =
      front ++ last ++ '(' :: (inside ++ '.' :: (r.name ++ r.call)) := by
    rw [chars, Reference.front, hr]
    simp
  rw [hchars, firstName_of_isSplit { hsplit with rest_paren := by simp }]

end Reference

/-- Something is called first in an expression with a parenthesis. -/
theorem exists_firstCalled {expr : List Char} (h : '(' ∈ expr) : ∃ name, FirstCalled expr name := by
  obtain ⟨front, last, rest, rfl, hsplit⟩ := exists_isSplit expr
  cases rest with
  | nil =>
    rw [List.append_nil] at h
    exact absurd h hsplit.no_paren
  | cons c inside =>
    obtain rfl : c = '(' := hsplit.rest_paren c rfl
    exact ⟨trim last, front, last, inside, rfl, hsplit, rfl⟩

/-- The name that a reference gives is its identifier if no parenthesis stands in its receiver, and
else what is called first in the receiver. -/
theorem Reference.defaultName_text_iff (r : Reference) (name : List Char) :
    defaultName r.text = String.ofList name ↔
      (r.IsDirect ∧ name = r.name) ∨ ∃ receiver ∈ r.receiver?, FirstCalled receiver name := by
  rw [defaultName_eq, text, String.toList_ofList, String.ofList_inj]
  constructor
  · rintro rfl
    by_cases hdirect : r.IsDirect
    · exact Or.inl ⟨hdirect, hdirect.firstName_chars⟩
    · simp only [IsDirect, not_forall, not_not] at hdirect
      obtain ⟨receiver, hr, hparen⟩ := hdirect
      obtain ⟨name, hname⟩ := exists_firstCalled hparen
      rw [firstName_chars_of_firstCalled hr hname]
      exact Or.inr ⟨receiver, hr, hname⟩
  · rintro (⟨hdirect, rfl⟩ | ⟨receiver, hr, hname⟩)
    · exact hdirect.firstName_chars
    · exact firstName_chars_of_firstCalled hr hname

/-! ### Files -/

/-- The entry has what its sort needs: a method its container, a value or a type its type. -/
def SymbolEntry.isComplete (e : SymbolEntry) : Bool :=
  match e.sort with
  | .value _ => e.type?.isSome
  | .method => e.container?.isSome
  | .type => e.type?.isSome
  | .namespaceName => true

/-- A complete entry declares a symbol, under its own name or the one that its expression gives. -/
theorem SymbolEntry.exists_toSymbol {e : SymbolEntry} (h : e.isComplete = true) :
    ∃ s, e.toSymbol = .ok s ∧ ∀ name, s.name? = some name ↔
      e.sort ≠ .type ∧ name = e.name?.getD (defaultName e.expr) := by
  rw [isComplete] at h
  rw [toSymbol]
  cases hsort : e.sort with
  | value sort =>
    rw [hsort] at h
    obtain ⟨type, htype⟩ := Option.isSome_iff_exists.mp h
    rw [htype]
    exact ⟨_, rfl, by simp [Symbol.name?, eq_comm]⟩
  | method =>
    rw [hsort] at h
    obtain ⟨container, hcontainer⟩ := Option.isSome_iff_exists.mp h
    rw [hcontainer]
    exact ⟨_, rfl, by simp [Symbol.name?, eq_comm]⟩
  | type =>
    rw [hsort] at h
    obtain ⟨type, htype⟩ := Option.isSome_iff_exists.mp h
    rw [htype]
    exact ⟨_, rfl, by simp [Symbol.name?]⟩
  | namespaceName => exact ⟨_, rfl, by simp [Symbol.name?, eq_comm]⟩

/-- Complete entries are all declared. An expression that none of them has keeps its symbol. -/
theorem exists_foldlM_bind (m : Model) {es : List SymbolEntry}
    (h : ∀ e ∈ es, e.isComplete = true) :
    ∃ m', es.foldlM (fun m e => e.toSymbol.map (m.bind e.expr)) m = .ok m' ∧
      ∀ text, (∀ e ∈ es, squeeze e.expr ≠ squeeze text) → m'.binding? text = m.binding? text := by
  induction es generalizing m with
  | nil => exact ⟨m, rfl, fun _ _ => rfl⟩
  | cons e es ih =>
    rw [List.forall_mem_cons] at h
    obtain ⟨s, hs, -⟩ := SymbolEntry.exists_toSymbol h.1
    obtain ⟨m', hm', hkept⟩ := ih (m.bind e.expr s) h.2
    refine ⟨m', ?_, fun text htext => ?_⟩
    · rw [List.foldlM_cons, hs]
      exact hm'
    · rw [List.forall_mem_cons] at htext
      have hbind := binding?_add m (.binding e.expr s) text
      rw [Addition.symbolFor?, if_neg (Ne.symm htext.1), Option.none_or] at hbind
      rw [hkept text htext.2, ← hbind, add]

/-- The last entry of an expression makes its symbol. -/
theorem exists_foldlM_bind_last (m : Model) {before after : List SymbolEntry} {e : SymbolEntry}
    (h : ∀ e' ∈ before ++ e :: after, e'.isComplete = true)
    (hlast : ∀ e' ∈ after, squeeze e'.expr ≠ squeeze e.expr) :
    ∃ m' s, (before ++ e :: after).foldlM (fun m e => e.toSymbol.map (m.bind e.expr)) m = .ok m' ∧
      e.toSymbol = .ok s ∧ m'.binding? e.expr = some s := by
  rw [List.forall_mem_append, List.forall_mem_cons] at h
  obtain ⟨hbefore, he, hafter⟩ := h
  obtain ⟨s, hs, -⟩ := SymbolEntry.exists_toSymbol he
  obtain ⟨m₁, hm₁, -⟩ := exists_foldlM_bind m hbefore
  obtain ⟨m₂, hm₂, hkept⟩ := exists_foldlM_bind (m₁.bind e.expr s) hafter
  refine ⟨m₂, s, ?_, hs, ?_⟩
  · have hrun : (e :: after).foldlM (fun m e => e.toSymbol.map (m.bind e.expr)) m₁ = .ok m₂ := by
      rw [List.foldlM_cons, hs]
      exact hm₂
    rw [List.foldlM_append, hm₁]
    exact hrun
  · have hbind := binding?_add m₁ (.binding e.expr s) e.expr
    rw [Addition.symbolFor?, if_pos rfl, Option.some_or] at hbind
    rw [hkept e.expr hlast, ← hbind, add]

namespace Reference

/-- **The name of a symbol that is declared without one.** Let the last entry of an expression in a
file with complete entries have no name, and let the expression be a reference. The file is a
model in which every node with this expression denotes one symbol. Unless this is a type, it has
a name: the identifier of the reference if no parenthesis stands in its receiver, and else what
stands before the first parenthesis of the receiver. -/
theorem bound_name_iff {document : String} {d : Declarations}
    (hfile : (Toml.parse? document).bind Declarations.of? = some d)
    (hcomplete : ∀ e ∈ d.symbols, e.isComplete = true) {before after : List SymbolEntry}
    {e : SymbolEntry} (hd : d.symbols = before ++ e :: after)
    (hlast : ∀ e' ∈ after, squeeze e'.expr ≠ squeeze e.expr) (hname : e.name? = none)
    (r : Reference) (hexpr : e.expr = r.text) :
    ∃ m s, ofToml document = .ok m ∧
      (∀ n : Node, squeeze n.text = squeeze e.expr → m.symbolOf n = some s) ∧
      ∀ name, s.name? = some (String.ofList name) ↔ e.sort ≠ .type ∧
        ((r.IsDirect ∧ name = r.name) ∨ ∃ receiver ∈ r.receiver?, FirstCalled receiver name) := by
  rw [hd] at hcomplete
  obtain ⟨m, s, hm, hs, hbinding⟩ := exists_foldlM_bind_last _ hcomplete hlast
  obtain ⟨s', hs', hnamed⟩ := SymbolEntry.exists_toSymbol (hcomplete e (by simp))
  obtain rfl : s' = s := Except.ok.inj (hs'.symm.trans hs)
  refine ⟨m, s', ?_, fun n hn => ?_, fun name => ?_⟩
  · rw [ofToml, hfile]
    show baseLibrary.declare d = .ok m
    rw [declare, hd]
    exact hm
  · have hnode : m.binding? n.text = some s' := by rw [binding?, hn, ← binding?, hbinding]
    rw [symbolOf, hnode]
  · rw [hnamed, hname, Option.getD_none, hexpr, eq_comm, r.defaultName_text_iff]

/-- A call of a member, with a dot and a call among its arguments. -/
def sized : Reference :=
  ⟨some "c".toList, "Größe".toList, some "a.B(1)".toList, by decide⟩

/-- A file that binds the call and then its receiver. -/
def sizedFile : String :=
  "[[symbols]]\nexpr = 'c.Größe(a.B(1))'\nkind = 'method'\ncontainer = 'C'\n" ++
    "[[symbols]]\nexpr = 'c'\nkind = 'namespace'\n"

/-- The entry of the call. -/
def sizedEntry : SymbolEntry :=
  ⟨sized.text, .method, none, none, some "C", none⟩

/-- What the file declares. -/
def sizedDeclarations : Declarations :=
  ⟨[], [sizedEntry, ⟨"c", .namespaceName, none, none, none, none⟩], []⟩

/-- The call is named by its identifier. -/
theorem bound_name_iff_sized :
    sized.text = "c.Größe(a.B(1))" ∧ sized.IsDirect ∧
      (Toml.parse? sizedFile).bind Declarations.of? = some sizedDeclarations ∧
      ∃ m s, ofToml sizedFile = .ok m ∧
        (∀ n : Node, squeeze n.text = squeeze sized.text → m.symbolOf n = some s) ∧
        s.name? = some "Größe" := by
  have hdirect : sized.IsDirect := by
    rintro receiver ⟨⟩
    decide
  have hfile : (Toml.parse? sizedFile).bind Declarations.of? = some sizedDeclarations := by
    decide +kernel
  have hd : sizedDeclarations.symbols =
      [] ++ sizedEntry :: [⟨"c", .namespaceName, none, none, none, none⟩] := rfl
  obtain ⟨m, s, hm, hnode, hnamed⟩ :=
    bound_name_iff hfile (by decide) hd (by decide) rfl sized rfl
  exact ⟨by decide, hdirect, hfile, m, s, hm, hnode,
    (hnamed "Größe".toList).mpr ⟨by decide, Or.inl ⟨hdirect, rfl⟩⟩⟩

/-- A member of what a call returns. -/
def chained : Reference :=
  ⟨some "c.Get(1)".toList, "Inner".toList, none, by decide⟩

/-- A file that binds the member. -/
def chainedFile : String :=
  "[[symbols]]\nexpr = 'c.Get(1).Inner'\nkind = 'property'\ntype = 'App.Map'\n"

/-- The member is not named by its identifier, although the parentheses of its receiver are
balanced, but by the call in its receiver. -/
theorem bound_name_chained :
    chained.text = "c.Get(1).Inner" ∧ IsBalanced "c.Get(1)".toList ∧
      (do (← (← (ofToml chainedFile).toOption).binding? chained.text).name?) = some "Get" :=
  ⟨by decide, by decide, by decide +kernel⟩

end Reference

end Model

end ViewLint
