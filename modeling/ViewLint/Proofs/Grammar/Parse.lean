import ViewLint.Proofs.Grammar.Lexeme
import ViewLint.Proofs.Grammar.Rule

/-!
# Every source has a lossless tree

The leaves of the concrete tree of a source take their offsets from the tokens, the comments and the
directives of the source, and all of these start and stop between characters. So nothing has to be
asked of a source: its tree renders back to it, and has the spans that a layout gives.

## Main results

* `Grammar.onCharacters_compilationUnit`: the leaves of a source start and stop between characters.
* `Tree.text_parse`: the tree of a source renders back to the source.
* `Tree.laidOut_parse`: the tree of a source is laid out.
-/

namespace ViewLint

open Concrete (rangesOf OnCharacters)
open Lexer (Lexed)

variable {source : String}

/-! ### Comments and directives -/

namespace Concrete

theorem forall_mem_splitBefore {P : Concrete → Prop} {extras : List Concrete} (offset : Nat)
    (h : ∀ e ∈ extras, P e) :
    (∀ e ∈ (splitBefore offset extras).1, P e) ∧ ∀ e ∈ (splitBefore offset extras).2, P e := by
  rw [splitBefore, List.partition_eq_filter_filter]
  exact ⟨fun e he => h e (List.mem_filter.mp he).1, fun e he => h e (List.mem_filter.mp he).1⟩

mutual

/-- Comments and directives between characters can be put into a tree between characters. -/
theorem onCharacters_weave : ∀ (c : Concrete) (extras : List Concrete),
    OnCharacters source c.ranges → (∀ e ∈ extras, OnCharacters source e.ranges) →
    OnCharacters source (c.weave extras).ranges
  | .leaf kind named start stop, extras, h, hextras => by
    rw [weave]
    exact h
  | .node kind named cs, extras, h, hextras => by
    rw [ranges_node] at h
    rw [weave, ranges_node]
    exact onCharacters_weaveAll cs extras h hextras

theorem onCharacters_weaveAll : ∀ (cs : List (Option String × Concrete)) (extras : List Concrete),
    OnCharacters source (rangesOf cs) → (∀ e ∈ extras, OnCharacters source e.ranges) →
    OnCharacters source (rangesOf (weaveAll cs extras))
  | [], extras, h, hextras => by
    rw [weaveAll, onCharacters_rangesOf]
    exact List.forall_mem_map.mpr hextras
  | (f, c) :: cs, extras, h, hextras => by
    rw [rangesOf, onCharacters_append] at h
    obtain ⟨hbefore, hrest⟩ := forall_mem_splitBefore (c.start?.getD 0) hextras
    obtain ⟨hinside, hafter⟩ := forall_mem_splitBefore (c.stop?.getD 0) hrest
    rw [weaveAll, onCharacters_rangesOf_append, rangesOf, onCharacters_append,
      onCharacters_rangesOf]
    exact ⟨List.forall_mem_map.mpr hbefore, onCharacters_weave c _ h.1 hinside,
      onCharacters_weaveAll cs _ h.2 hafter⟩

end

mutual

/-- A tree stops where one of its leaves does. -/
theorem exists_mem_ranges : ∀ (c : Concrete) {stop : Nat}, c.stop? = some stop →
    ∃ r ∈ c.ranges, r.2 = stop
  | .leaf kind named start stop', stop, h => by
    rw [stop?] at h
    cases h
    exact ⟨(start, stop'), by rw [ranges]; exact List.mem_singleton_self _, rfl⟩
  | .node kind named cs, stop, h => by
    rw [stop?] at h
    rw [ranges]
    exact exists_mem_rangesOf cs h

theorem exists_mem_rangesOf : ∀ (cs : List (Option String × Concrete)) {stop : Nat},
    stopOf? cs = some stop → ∃ r ∈ rangesOf cs, r.2 = stop
  | [], stop, h => by
    rw [stopOf?] at h
    cases h
  | (f, c) :: cs, stop, h => by
    rw [stopOf?, Option.or_eq_some_iff] at h
    rw [rangesOf]
    rcases h with h | ⟨-, h⟩
    · obtain ⟨r, hr, hstop⟩ := exists_mem_rangesOf cs h
      exact ⟨r, List.mem_append_right _ hr, hstop⟩
    · obtain ⟨r, hr, hstop⟩ := exists_mem_ranges c h
      exact ⟨r, List.mem_append_left _ hr, hstop⟩

end

end Concrete

/-! ### Items -/

namespace Grammar

variable {g : Grammar} [∀ left rule, Reader.Aligned source left (g rule)] {stop : Nat}
  {ts : List Token}

theorem onCharacters_looseToken {t : Token} (h : t.Aligned source) :
    OnCharacters source (looseToken t).ranges := by
  rw [looseToken]
  split
  next parts heq => exact h.parts parts heq
  next => split <;> [exact h.identifier; exact h.plain]

theorem onCharacters_unfinishedStatement {xs : List Concrete.Child} {rest : List Token}
    (hstop : String.Pos.Raw.IsValid source ⟨stop⟩) (hts : ∀ t ∈ ts, t.Aligned source)
    (h : unfinishedStatement g stop ts = some (xs, rest)) : OnCharacters source (rangesOf xs) := by
  rw [unfinishedStatement] at h
  split at h
  next ys heq =>
    cases h
    obtain ⟨hys, -⟩ := Reader.Aligned.read_first hts heq
    simp only [Concrete.rangesOf_singleton, Concrete.ranges_node,
      Concrete.onCharacters_rangesOf_append]
    exact ⟨hys, Concrete.onCharacters_leaf hstop hstop⟩
  next => cases h

theorem onCharacters_errorNode (hts : ∀ t ∈ ts, t.Aligned source) :
    OnCharacters source (rangesOf (errorNode g ts).1) ∧
      ∀ t ∈ (errorNode g ts).2, t.Aligned source := by
  rw [errorNode]
  extract_lets skipped taken
  have htaken : ∀ t ∈ taken, t ∈ ts := by
    dsimp only [taken]
    split
    · exact fun t => List.mem_of_mem_take
    · exact List.takeWhile_subset _
  have hloose : OnCharacters source (rangesOf (taken.map fun t => (none, looseToken t))) ∧
      ∀ t ∈ ts.drop taken.length, t.Aligned source := by
    rw [Concrete.onCharacters_rangesOf, List.forall_mem_map]
    exact ⟨fun t ht => onCharacters_looseToken (hts t (htaken t ht)),
      fun t ht => hts t (List.mem_of_mem_drop ht)⟩
  split
  next xs rest heq =>
    split
    next =>
      rw [Concrete.rangesOf_singleton, Concrete.ranges_node]
      exact Reader.Aligned.read_first hts heq
    next =>
      rw [Concrete.rangesOf_singleton, Concrete.ranges_node]
      exact hloose
  next =>
    rw [Concrete.rangesOf_singleton, Concrete.ranges_node]
    exact hloose

theorem onCharacters_items (hstop : String.Pos.Raw.IsValid source ⟨stop⟩) (limit : Nat)
    (hts : ∀ t ∈ ts, t.Aligned source) :
    OnCharacters source (rangesOf (items g stop limit ts).1) := by
  induction limit generalizing ts with
  | zero => exact Concrete.onCharacters_nil
  | succ limit ih =>
    rw [items]
    split
    next => exact Concrete.onCharacters_nil
    next =>
      split
      next xs rest heq =>
        obtain ⟨hxs, hrest⟩ := Reader.Aligned.read_first hts heq
        exact Concrete.onCharacters_rangesOf_append.mpr ⟨hxs, ih hrest⟩
      next =>
        split
        next xs rest heq => exact onCharacters_unfinishedStatement hstop hts heq
        next =>
          obtain ⟨hxs, hrest⟩ := onCharacters_errorNode (g := g) hts
          exact Concrete.onCharacters_rangesOf_append.mpr ⟨hxs, ih hrest⟩

/-- The source stops, but for blanks, between characters. -/
theorem isValid_last {lexed : Lexed} (h : lexed.Aligned source) :
    String.Pos.Raw.IsValid source ⟨max ((lexed.tokens.getLast?.map (·.stop)).getD 0)
      ((lexed.extras.getLast?.bind (·.stop?)).getD 0)⟩ := by
  refine Concrete.isValid_max ?_ ?_
  · cases hlast : lexed.tokens.getLast? with
    | none => exact String.Pos.Raw.isValid_zero
    | some t => exact (h.tokens t (List.mem_of_getLast? hlast)).stop
  · cases hlast : lexed.extras.getLast?.bind (·.stop?) with
    | none => exact String.Pos.Raw.isValid_zero
    | some stop =>
      obtain ⟨e, he, hstop⟩ := Option.bind_eq_some_iff.mp hlast
      obtain ⟨r, hr, rfl⟩ := Concrete.exists_mem_ranges e hstop
      exact (h.extras e (List.mem_of_getLast? he) r hr).2

/-- **The leaves of a source start and stop between characters.** -/
theorem onCharacters_compilationUnit (source : String) :
    OnCharacters source (compilationUnit source).1.ranges := by
  have hlexed := aligned_lex source
  have hend : String.Pos.Raw.IsValid source ⟨source.utf8ByteSize⟩ :=
    String.Pos.Raw.isValid_rawEndPos
  rw [compilationUnit]
  dsimp only
  split
  next => exact Concrete.onCharacters_leaf hend hend
  next =>
    refine Concrete.onCharacters_weave _ _ ?_ hlexed.extras
    rw [Concrete.ranges_node]
    exact onCharacters_items (isValid_last hlexed) _ hlexed.tokens

end Grammar

/-! ### Trees -/

namespace Tree

/-- **Every source has a lossless tree.** The tree of a source renders back to the source. -/
theorem text_parse (source : String) : (parse source).text = source :=
  text_ofConcrete _ (Grammar.onCharacters_compilationUnit source)

/-- The tree of a source has the spans that a layout gives. -/
theorem laidOut_parse (source : String) : (parse source).LaidOut :=
  laidOut_ofConcrete _ (Grammar.onCharacters_compilationUnit source)

end Tree

end ViewLint
