import ViewLint.Grammar.Declaration
import ViewLint.Proofs.Grammar.Lossless

/-!
# Readers keep to the tokens

The grammar computes no offsets: the leaves that a reader gives take their ranges from the tokens
that it read. So if all tokens start and stop between characters of the source, all leaves do. This
holds of a reader that is put together from others if it holds of these, and the instances below say
so for each way to put readers together; for a rule of the grammar it follows from its text.

Some readers go on from what was read before them, and put it into a node of their own. So the
property is relative to these children.

## Main definitions

* `Token.Aligned`: a token starts and stops between characters.
* `Reader.Aligned`: a reader keeps to the offsets of the tokens.

## Main results

* `Reader.Aligned.single`: a reader of one token.
* `Reader.Aligned.choice`: a choice between any number of readers.
-/

namespace ViewLint

open Concrete (rangesOf OnCharacters)

/-! ### Ranges of leaves -/

namespace Concrete

variable {source : String}

theorem rangesOf_append (xs ys : List Child) :
    rangesOf (xs ++ ys) = rangesOf xs ++ rangesOf ys := by
  induction xs with
  | nil => rfl
  | cons x xs ih => rw [List.cons_append, rangesOf, rangesOf, ih, List.append_assoc]

/-- The fields that children fill do not change their ranges. -/
theorem rangesOf_map_field (name : Option String) (xs : List Child) :
    rangesOf (xs.map fun x => (name, x.2)) = rangesOf xs := by
  induction xs with
  | nil => rfl
  | cons x xs ih => rw [List.map_cons, rangesOf, rangesOf, ih]

theorem ranges_node (kind : String) (named : Bool) (xs : List Child) :
    (node kind named xs).ranges = rangesOf xs := by
  rw [ranges]

theorem rangesOf_singleton (f : Option String) (c : Concrete) : rangesOf [(f, c)] = c.ranges := by
  rw [rangesOf, rangesOf, List.append_nil]

theorem onCharacters_nil : OnCharacters source [] :=
  List.forall_mem_nil _

theorem onCharacters_append {rs rs' : List (Nat × Nat)} :
    OnCharacters source (rs ++ rs') ↔ OnCharacters source rs ∧ OnCharacters source rs' :=
  List.forall_mem_append

theorem onCharacters_rangesOf_append {xs ys : List Child} :
    OnCharacters source (rangesOf (xs ++ ys)) ↔
      OnCharacters source (rangesOf xs) ∧ OnCharacters source (rangesOf ys) := by
  rw [rangesOf_append, onCharacters_append]

theorem onCharacters_rangesOf {xs : List Child} :
    OnCharacters source (rangesOf xs) ↔ ∀ x ∈ xs, OnCharacters source x.2.ranges := by
  induction xs with
  | nil => exact iff_of_true onCharacters_nil (List.forall_mem_nil _)
  | cons x xs ih => rw [rangesOf, onCharacters_append, ih, List.forall_mem_cons]

theorem onCharacters_leaf {kind : String} {named : Bool} {start stop : Nat}
    (hstart : String.Pos.Raw.IsValid source ⟨start⟩)
    (hstop : String.Pos.Raw.IsValid source ⟨stop⟩) :
    OnCharacters source (leaf kind named start stop).ranges := by
  rw [ranges]
  intro r hr
  rw [List.mem_singleton.mp hr]
  exact ⟨hstart, hstop⟩

end Concrete

/-! ### Tokens -/

/-- A token starts and stops between characters of the source, and so do the parts of a literal. -/
structure Token.Aligned (source : String) (t : Token) : Prop where
  start : String.Pos.Raw.IsValid source ⟨t.start⟩
  stop : String.Pos.Raw.IsValid source ⟨t.stop⟩
  parts : ∀ parts, t.cls = .literal parts → OnCharacters source parts.ranges

namespace Token.Aligned

variable {source : String} {t : Token}

theorem plain (h : t.Aligned source) : OnCharacters source t.plain.ranges :=
  Concrete.onCharacters_leaf h.start h.stop

theorem named (kind : String) (h : t.Aligned source) :
    OnCharacters source (t.named kind).ranges :=
  Concrete.onCharacters_leaf h.start h.stop

theorem identifier (h : t.Aligned source) : OnCharacters source t.identifier.ranges := by
  rw [Token.identifier]
  split
  · split
    · rw [Concrete.ranges_node, Concrete.rangesOf_singleton]
      exact h.plain
    · exact h.named _
  · exact h.named _

end Token.Aligned

/-! ### Readers -/

namespace Reader

/-- Behind the children `left`, a reader gives only leaves that start and stop between characters of
the source, if the leaves of `left` and the tokens do. -/
class Aligned (source : String) (left : List Concrete.Child) (p : Reader) : Prop where
  read : ∀ {ts xs rest}, OnCharacters source (rangesOf left) →
    (∀ t ∈ ts, Token.Aligned source t) → p ts = some (xs, rest) →
      OnCharacters source (rangesOf xs) ∧ ∀ t ∈ rest, Token.Aligned source t

namespace Aligned

variable {source : String} {left : List Concrete.Child} {p q : Reader} {ps : List Reader}

/-- A reader that is the first to read. -/
theorem read_first [hp : Aligned source [] p] {ts rest : List Token} {xs : List Concrete.Child}
    (hts : ∀ t ∈ ts, Token.Aligned source t) (h : p ts = some (xs, rest)) :
    OnCharacters source (rangesOf xs) ∧ ∀ t ∈ rest, Token.Aligned source t :=
  hp.read Concrete.onCharacters_nil hts h

/-! #### One token -/

/-- A reader of one token keeps to the offsets of the token if the tree of the token does. -/
theorem single {test : Token → Bool} {leaf : Token → Concrete}
    (hleaf : ∀ t, Token.Aligned source t → OnCharacters source (leaf t).ranges) :
    Aligned source left (Reader.single test leaf) where
  read {ts xs rest} _ hts h := by
    cases ts with
    | nil => cases h
    | cons t ts =>
      obtain ⟨ht, hrest⟩ := List.forall_mem_cons.mp hts
      rw [Reader.single] at h
      split at h
      next =>
        cases h
        rw [Concrete.rangesOf_singleton]
        exact ⟨hleaf t ht, hrest⟩
      next => cases h

instance (text : String) : Aligned source left (tok text) :=
  single fun _ => Token.Aligned.plain

instance (texts : List String) : Aligned source left (anyOf texts) :=
  single fun _ => Token.Aligned.plain

instance (kind : String) (texts : List String) : Aligned source left (wordAs kind texts) :=
  single fun _ => Token.Aligned.named kind

instance : Aligned source left identifier :=
  single fun _ => Token.Aligned.identifier

instance (kind : String) : Aligned source left (identifierAs kind) :=
  single fun _ => Token.Aligned.named kind

instance : Aligned source left literal where
  read {ts xs rest} _ hts h := by
    cases ts with
    | nil => cases h
    | cons t ts =>
      obtain ⟨ht, hrest⟩ := List.forall_mem_cons.mp hts
      rw [literal] at h
      split at h
      next parts heq =>
        cases h
        rw [Concrete.rangesOf_singleton]
        exact ⟨ht.parts parts heq, hrest⟩
      next => cases h

/-! #### Sequences and choices -/

instance : Aligned source left nothing where
  read _ hts h := by
    cases h
    exact ⟨Concrete.onCharacters_nil, hts⟩

instance : Aligned source left refuse where
  read _ _ h := by cases h

instance : Aligned source left (seq []) where
  read _ hts h := by
    cases h
    exact ⟨Concrete.onCharacters_nil, hts⟩

instance [hp : Aligned source left p] [hps : Aligned source left (seq ps)] :
    Aligned source left (seq (p :: ps)) where
  read hleft hts h := by
    rw [seq] at h
    split at h
    next => cases h
    next xs rest heq =>
      obtain ⟨hxs, hrest⟩ := hp.read hleft hts heq
      split at h
      next => cases h
      next ys rest' heq' =>
        obtain ⟨hys, hrest'⟩ := hps.read hleft hrest heq'
        cases h
        exact ⟨Concrete.onCharacters_rangesOf_append.mpr ⟨hxs, hys⟩, hrest'⟩

instance : Aligned source left (Reader.choice []) where
  read _ _ h := by cases h

instance [hp : Aligned source left p] [hps : Aligned source left (Reader.choice ps)] :
    Aligned source left (Reader.choice (p :: ps)) where
  read hleft hts h := by
    rw [Reader.choice] at h
    split at h
    next found heq =>
      cases h
      exact hp.read hleft hts heq
    next => exact hps.read hleft hts h

/-- A choice between any number of readers. -/
theorem choice (h : ∀ p ∈ ps, Aligned source left p) : Aligned source left (Reader.choice ps) := by
  induction ps with
  | nil => infer_instance
  | cons p ps ih =>
    obtain ⟨hp, hps⟩ := List.forall_mem_cons.mp h
    have := ih hps
    infer_instance

instance [hp : Aligned source left p] : Aligned source left (optional p) where
  read hleft hts h := by
    rw [optional] at h
    split at h
    next found heq =>
      cases h
      exact hp.read hleft hts heq
    next =>
      cases h
      exact ⟨Concrete.onCharacters_nil, hts⟩

instance (test : List Token → Bool) [hp : Aligned source left p] :
    Aligned source left (when test p) where
  read hleft hts h := by
    rw [when] at h
    split at h
    next => exact hp.read hleft hts h
    next => cases h

instance (test : List Token → Bool) [hp : Aligned source left p] [hq : Aligned source left q] :
    Aligned source left (branch test p q) where
  read hleft hts h := by
    rw [branch] at h
    split at h
    next => exact hp.read hleft hts h
    next => exact hq.read hleft hts h

/-! #### Repetition -/

instance (p : Nat → Reader) [hp : ∀ limit, Aligned source left (p limit)] :
    Aligned source left (sized p) where
  read {ts _ _} hleft hts h := (hp ts.length).read hleft hts h

instance [hp : Aligned source left p] (limit : Nat) :
    Aligned source left (repeatUpTo p limit) := by
  induction limit with
  | zero =>
    constructor
    intro ts xs rest _ hts h
    cases h
    exact ⟨Concrete.onCharacters_nil, hts⟩
  | succ limit ih =>
    constructor
    intro ts xs rest hleft hts h
    rw [repeatUpTo] at h
    split at h
    next =>
      cases h
      exact ⟨Concrete.onCharacters_nil, hts⟩
    next ys rest' heq =>
      obtain ⟨hys, hrest'⟩ := hp.read hleft hts heq
      split at h
      next => cases h
      next zs rest'' heq' =>
        obtain ⟨hzs, hrest''⟩ := ih.read hleft hrest' heq'
        cases h
        exact ⟨Concrete.onCharacters_rangesOf_append.mpr ⟨hys, hzs⟩, hrest''⟩

instance [Aligned source left p] : Aligned source left (many p) := by
  unfold many
  infer_instance

instance [Aligned source left p] : Aligned source left (some1 p) := by
  unfold some1
  infer_instance

instance [Aligned source left p] : Aligned source left (sepBy1 p) := by
  unfold sepBy1
  infer_instance

instance [Aligned source left p] : Aligned source left (sepBy p) := by
  unfold sepBy
  infer_instance

instance [Aligned source left p] : Aligned source left (sepByTrailing p) := by
  unfold sepByTrailing
  infer_instance

/-! #### Nodes -/

instance (kind : String) [hp : Aligned source left p] : Aligned source left (node kind p) where
  read hleft hts h := by
    rw [node] at h
    split at h
    next xs rest heq =>
      cases h
      rw [Concrete.rangesOf_singleton, Concrete.ranges_node]
      exact hp.read hleft hts heq
    next => cases h

instance (name : String) [hp : Aligned source left p] : Aligned source left (field name p) where
  read hleft hts h := by
    rw [field] at h
    split at h
    next xs rest heq =>
      cases h
      rw [Concrete.rangesOf_map_field]
      exact hp.read hleft hts heq
    next => cases h

/-! #### Going on from what was read -/

instance : Aligned source left (keep left) where
  read hleft hts h := by
    cases h
    exact ⟨hleft, hts⟩

instance (name : Option String) : Aligned source left (given name left) where
  read hleft hts h := by
    cases h
    rw [Concrete.rangesOf_map_field]
    exact ⟨hleft, hts⟩

instance (next : List Concrete.Child → Reader) [hp : Aligned source left p]
    [hnext : ∀ xs, Aligned source xs (next xs)] : Aligned source left (andThen p next) where
  read hleft hts h := by
    rw [andThen] at h
    split at h
    next => cases h
    next xs rest heq =>
      obtain ⟨hxs, hrest⟩ := hp.read hleft hts heq
      exact (hnext xs).read hxs hrest h

instance (wrap : List Concrete.Child → Reader) [hwrap : ∀ xs, Aligned source xs (wrap xs)]
    (limit : Nat) (xs : List Concrete.Child) : Aligned source xs (wrapUpTo wrap limit xs) := by
  induction limit generalizing xs with
  | zero =>
    constructor
    intro ts ys rest hxs hts h
    cases h
    exact ⟨hxs, hts⟩
  | succ limit ih =>
    constructor
    intro ts ys rest hxs hts h
    rw [wrapUpTo] at h
    split at h
    next =>
      cases h
      exact ⟨hxs, hts⟩
    next zs rest' heq =>
      obtain ⟨hzs, hrest'⟩ := (hwrap xs).read hxs hts heq
      exact (ih zs).read hzs hrest' h

instance (wrap : List Concrete.Child → Reader) [Aligned source left p]
    [∀ xs, Aligned source xs (wrap xs)] : Aligned source left (foldLeft p wrap) := by
  unfold foldLeft
  infer_instance

end Aligned

end Reader

end ViewLint
