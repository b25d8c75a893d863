import Mathlib.Data.List.TakeDrop
import ViewLint.Grammar.Lexer
import ViewLint.Proofs.Grammar.Reader
import ViewLint.Proofs.Text.Cut

/-!
# Lexemes are cut between characters

A scanner divides the characters that are left into a lexeme and a rest, and the offset goes on by
the bytes of the lexeme. So every offset that the lexer reaches stands between characters of the
source, and every token, comment and directive starts and stops at such offsets.

That the text of a lexeme is what stands there needs an argument in one place: where the text of an
interpolated string stops at a quote, all of its closing quotes stand there. This holds because such
a string is opened by one quote or by at least three.

## Main definitions

* `Lexer.At`: the characters that are left at an offset.
* `Lexer.Frame.Closes`: the numbers of quotes that can open an interpolated string.
* `Lexer.Step.Aligned`: a step keeps between characters.

## Main results

* `Lexer.aligned_step`: a step of the lexer keeps between characters.
* `Lexer.aligned_lexFrom`, `aligned_lex`: so do all tokens, comments and directives of a source.
-/

namespace ViewLint

open Concrete (rangesOf OnCharacters)

namespace Lexer

variable {source : String} {offset stop : Nat} {cs text rest : List Char}

/-! ### Characters and bytes -/

theorem foldl_utf8Size (n : Nat) (cs : List Char) :
    cs.foldl (fun n c => n + c.utf8Size) n = n + byteLength cs := by
  induction cs generalizing n with
  | nil => rfl
  | cons c cs ih =>
    rw [List.foldl_cons, ih (n + c.utf8Size), byteLength.eq_def (c :: cs), List.foldl_cons,
      ih (0 + c.utf8Size), Nat.zero_add, Nat.add_assoc]

theorem byteLength_append (as bs : List Char) :
    byteLength (as ++ bs) = byteLength as + byteLength bs := by
  rw [byteLength, List.foldl_append, foldl_utf8Size]
  rfl

theorem byteLength_cons (c : Char) (cs : List Char) :
    byteLength (c :: cs) = c.utf8Size + byteLength cs := by
  rw [byteLength, List.foldl_cons, foldl_utf8Size, Nat.zero_add]

theorem byteLength_replicate {c : Char} (hc : c.utf8Size = 1) (n : Nat) :
    byteLength (List.replicate n c) = n := by
  induction n with
  | zero => rfl
  | succ n ih => rw [List.replicate_succ, byteLength_cons, ih, hc, Nat.add_comm]

theorem byteLength_eq (cs : List Char) : byteLength cs = (String.ofList cs).utf8ByteSize := by
  induction cs with
  | nil => rfl
  | cons c cs ih =>
    rw [byteLength_cons, ih, String.ofList_cons, String.utf8ByteSize_append,
      String.utf8ByteSize_singleton]

/-! ### Offsets -/

/-- At an offset of the source the given characters are left. -/
def At (source : String) (offset : Nat) (cs : List Char) : Prop :=
  ∃ before, source.toList = before ++ cs ∧ byteLength before = offset

namespace At

theorem start (source : String) : At source 0 source.toList :=
  ⟨[], rfl, rfl⟩

theorem isValid (h : At source offset cs) : String.Pos.Raw.IsValid source ⟨offset⟩ := by
  obtain ⟨before, hsource, rfl⟩ := h
  refine String.Pos.Raw.isValid_iff_exists_append.mpr
    ⟨String.ofList before, String.ofList cs, ?_, ?_⟩
  · rw [← String.ofList_append, ← hsource, String.ofList_toList]
  · rw [byteLength_eq]
    rfl

/-- The offset goes on by the bytes of what is read. -/
theorem append (h : At source offset (text ++ rest)) :
    At source (offset + byteLength text) rest := by
  obtain ⟨before, hsource, rfl⟩ := h
  exact ⟨before ++ text, by rw [hsource, List.append_assoc], byteLength_append before text⟩

theorem of_append (h : At source offset cs) (hcs : text ++ rest = cs) :
    At source (offset + byteLength text) rest :=
  append (hcs ▸ h)

theorem cons {c : Char} (hc : c.utf8Size = 1) (h : At source offset (c :: cs)) :
    At source (offset + 1) cs := by
  have hnext : At source (offset + byteLength [c]) cs := append h
  rwa [byteLength_cons, hc] at hnext

/-- Copies of a character of one byte are passed over by their number. -/
theorem replicate {c : Char} (hc : c.utf8Size = 1) {n : Nat}
    (h : At source offset (List.replicate n c ++ rest)) : At source (offset + n) rest := by
  have hnext := h.append
  rwa [byteLength_replicate hc] at hnext

/-- What stands between two offsets can be a leaf. -/
theorem leaf (kind : String) (named : Bool) (h : At source offset cs) (h' : At source stop rest) :
    OnCharacters source (Concrete.leaf kind named offset stop).ranges :=
  Concrete.onCharacters_leaf h.isValid h'.isValid

/-- What stands between two offsets can be a token. -/
theorem token {t : Token} (h : At source t.start cs) (h' : At source t.stop rest)
    (hcls : ∀ parts, t.cls ≠ .literal parts) : t.Aligned source where
  start := h.isValid
  stop := h'.isValid
  parts parts heq := absurd heq (hcls parts)

end At

/-! ### Scanners -/

theorem lineComment_append (cs : List Char) : (lineComment cs).1 ++ (lineComment cs).2 = cs := by
  rw [lineComment, List.span_eq_takeWhile_dropWhile, List.takeWhile_append_dropWhile]

theorem blockComment_append (h : blockComment cs = some (text, rest)) : text ++ rest = cs := by
  fun_induction blockComment cs generalizing text with
  | case1 rest =>
    cases h
    rfl
  | case2 c cs hne ih =>
    obtain ⟨⟨t, r⟩, hfound, heq⟩ := Option.map_eq_some_iff.mp h
    cases heq
    rw [List.cons_append, ih hfound]
  | case3 => cases h

theorem scanWord_append (h : scanWord cs = some (text, rest)) : text ++ rest = cs := by
  cases cs with
  | nil => cases h
  | cons c cs =>
    simp only [scanWord, List.span_eq_takeWhile_dropWhile] at h
    split at h
    next =>
      cases h
      rw [List.cons_append, List.takeWhile_append_dropWhile]
    next => cases h

theorem scanVerbatimWord_append (h : scanVerbatimWord cs = some (text, rest)) :
    text ++ rest = cs := by
  rw [scanVerbatimWord.eq_def] at h
  split at h
  next =>
    obtain ⟨⟨word, after⟩, hword, heq⟩ := Option.map_eq_some_iff.mp h
    cases heq
    rw [List.cons_append, scanWord_append hword]
  next => cases h

theorem integerSuffix_append (cs : List Char) :
    (integerSuffix cs).1 ++ (integerSuffix cs).2 = cs := by
  rw [integerSuffix.eq_def]
  dsimp only
  split
  next => split <;> [rfl; split <;> rfl]
  next => split <;> rfl
  next => rfl

theorem exponent?_append (h : exponent? cs = some (text, rest)) : text ++ rest = cs := by
  cases cs with
  | nil => cases h
  | cons e cs =>
    simp only [exponent?, List.span_eq_takeWhile_dropWhile] at h
    split at h
    next =>
      split at h
      next s d r =>
        split at h
        next =>
          cases h
          simp only [List.cons_append, List.takeWhile_append_dropWhile]
        next =>
          split at h
          next =>
            cases h
            rw [List.cons_append, List.takeWhile_append_dropWhile]
          next => cases h
      next =>
        split at h
        next =>
          cases h
          rfl
        next => cases h
      next => cases h
    next => cases h

theorem realSuffix?_append (h : realSuffix? cs = some (text, rest)) : text ++ rest = cs := by
  cases cs with
  | nil => cases h
  | cons c cs =>
    rw [realSuffix?] at h
    split at h
    next =>
      cases h
      rfl
    next => cases h

theorem fraction?_append (h : fraction? cs = some (text, rest)) : text ++ rest = cs := by
  rw [fraction?.eq_def] at h
  split at h
  next =>
    simp only [List.span_eq_takeWhile_dropWhile] at h
    split at h
    next =>
      cases h
      simp only [List.cons_append, List.takeWhile_append_dropWhile]
    next => cases h
  next => cases h

/-- A part that may be missing divides the characters as a part that is there does. -/
theorem getD_append (cs : List Char) {found : Option (List Char × List Char)}
    (h : ∀ text rest, found = some (text, rest) → text ++ rest = cs) :
    (found.getD ([], cs)).1 ++ (found.getD ([], cs)).2 = cs := by
  cases found with
  | none => rfl
  | some found => exact h found.1 found.2 rfl

theorem realTail_append (read cs : List Char) :
    (realTail read cs).1 ++ (realTail read cs).2 = read ++ cs := by
  have hexponent := getD_append cs fun _ _ => exponent?_append
  have hsuffix := getD_append ((exponent? cs).getD ([], cs)).2 fun _ _ => realSuffix?_append
  rw [realTail, List.append_assoc, List.append_assoc, hsuffix, hexponent]

theorem scanNumber_append (cs : List Char) :
    (scanNumber cs).2.1 ++ (scanNumber cs).2.2 = cs := by
  have hradix (isPart : Char → Bool) (mark rest : List Char) :
      mark ++ rest.takeWhile isPart ++ (integerSuffix (rest.dropWhile isPart)).1 ++
        (integerSuffix (rest.dropWhile isPart)).2 = mark ++ rest := by
    rw [List.append_assoc, integerSuffix_append, List.append_assoc,
      List.takeWhile_append_dropWhile]
  rw [scanNumber.eq_def]
  simp only [List.span_eq_takeWhile_dropWhile]
  split
  · exact hradix _ _ _
  · exact hradix _ _ _
  · exact hradix _ _ _
  · exact hradix _ _ _
  · split
    next f r heq =>
      rw [realTail_append, List.append_assoc, fraction?_append heq,
        List.takeWhile_append_dropWhile]
    next =>
      split
      next => rw [realTail_append, List.takeWhile_append_dropWhile]
      next => rw [List.append_assoc, integerSuffix_append, List.takeWhile_append_dropWhile]

theorem scanEscape_append (h : scanEscape cs = some (text, rest)) : text ++ rest = cs := by
  have hhex {mark : Char} {count : Nat} {rest' : List Char}
      (h : scanEscape.hex mark count rest' = some (text, rest)) : text ++ rest = mark :: rest' := by
    rw [scanEscape.hex] at h
    split at h
    next =>
      cases h
      rw [List.cons_append, List.take_append_drop]
    next => cases h
  rw [scanEscape.eq_def] at h
  split at h
  next tail =>
    dsimp only at h
    split at h
    next => cases h
    next =>
      cases h
      have hdigits : (tail.take 4).takeWhile (fun c => isHexPart c && c != '_') <+: tail.take 4 :=
        List.takeWhile_prefix _
      have htake : tail.take 4 <+: tail := List.take_prefix 4 tail
      rw [List.cons_append, List.prefix_iff_eq_append.mp (hdigits.trans htake)]
  next => exact hhex h
  next => exact hhex h
  next =>
    split at h
    next =>
      cases h
      rfl
    next => cases h
  next => cases h

theorem characterContent_append {kind : String}
    (h : characterContent cs = some (kind, text, rest)) : text ++ rest = cs := by
  rw [characterContent.eq_def] at h
  split at h
  next tail =>
    obtain ⟨⟨escape, after⟩, hescape, heq⟩ := Option.map_eq_some_iff.mp h
    cases heq
    rw [List.cons_append, scanEscape_append hescape]
  next =>
    split at h
    next => cases h
    next =>
      cases h
      rfl
  next => cases h

theorem verbatimRest_append (h : verbatimRest cs = some (text, rest)) : text ++ rest = cs := by
  fun_induction verbatimRest cs generalizing text with
  | case1 cs ih =>
    obtain ⟨⟨t, r⟩, hfound, heq⟩ := Option.map_eq_some_iff.mp h
    cases heq
    rw [List.cons_append, List.cons_append, ih hfound]
  | case2 =>
    cases h
    rfl
  | case3 c cs _ _ ih =>
    obtain ⟨⟨t, r⟩, hfound, heq⟩ := Option.map_eq_some_iff.mp h
    cases heq
    rw [List.cons_append, ih hfound]
  | case4 => cases h

theorem exists_append_of_startsWith {head : List Char} (h : Text.startsWith head cs = true) :
    ∃ rest, cs = head ++ rest := by
  obtain ⟨rest, hrest⟩ := Option.isSome_iff_exists.mp h
  exact ⟨rest, Text.eq_append_of_afterHead hrest⟩

theorem rawContent_append {count : Nat} (h : rawContent count cs = some (text, rest)) :
    text ++ (List.replicate count '"' ++ rest) = cs := by
  induction cs generalizing text with
  | nil => cases h
  | cons c cs ih =>
    rw [rawContent] at h
    split at h
    next hstarts =>
      cases h
      obtain ⟨rest, hrest⟩ := exists_append_of_startsWith hstarts
      rw [List.nil_append, hrest, List.drop_left' List.length_replicate]
    next =>
      obtain ⟨⟨t, r⟩, hfound, heq⟩ := Option.map_eq_some_iff.mp h
      cases heq
      rw [List.cons_append, ih hfound]

theorem scanMark_append (h : scanMark cs = some (text, rest)) : text ++ rest = cs := by
  rw [scanMark.eq_def] at h
  split at h
  next mark heq =>
    cases h
    have hstarts := List.find?_some (p := fun m => Text.startsWith m cs) heq
    obtain ⟨rest, rfl⟩ := exists_append_of_startsWith hstarts
    rw [List.drop_left]
  next =>
    split at h
    next =>
      split at h
      next =>
        cases h
        rfl
      next => cases h
    next => cases h

theorem scanDirective_append {word : String} (h : scanDirective cs = some (word, text, rest)) :
    text ++ rest = cs := by
  rw [scanDirective.eq_def] at h
  split at h
  next =>
    simp only [List.span_eq_takeWhile_dropWhile] at h
    cases h
    simp only [List.cons_append, List.append_assoc, List.takeWhile_append_dropWhile]
  next => cases h

/-! ### Literals -/

/-- A node over leaves between characters has only such leaves. -/
theorem onCharacters_node (kind : String) {leaves : List Concrete}
    (h : ∀ l ∈ leaves, OnCharacters source l.ranges) :
    OnCharacters source (Concrete.node kind true (leaves.map fun l => (none, l))).ranges := by
  rw [Concrete.ranges_node, Concrete.onCharacters_rangesOf]
  exact List.forall_mem_map.mpr h

theorem stringParts_spec {limit start : Nat} {leaves : List Concrete} (hat : At source start cs)
    (h : stringParts limit start cs = some (leaves, stop, rest)) :
    (∀ l ∈ leaves, OnCharacters source l.ranges) ∧ At source stop rest := by
  induction limit generalizing start cs leaves with
  | zero => cases h
  | succ limit ih =>
    -- A part, and the parts after it.
    have hmore {kind : String} {next : Nat} {tail : List Char} {more : List Concrete}
        (hnext : At source next tail)
        (h : stringParts limit next tail = some (more, stop, rest)) :
        (∀ l ∈ Concrete.leaf kind true start next :: more, OnCharacters source l.ranges) ∧
          At source stop rest := by
      obtain ⟨hleaves, hstop⟩ := ih hnext h
      exact ⟨List.forall_mem_cons.mpr ⟨hat.leaf kind true hnext, hleaves⟩, hstop⟩
    rw [stringParts.eq_def] at h
    dsimp only at h
    split at h
    next tail =>
      cases h
      have hnext := hat.cons rfl
      exact ⟨List.forall_mem_singleton.mpr (hat.leaf _ _ hnext), hnext⟩
    next tail =>
      simp only [bind, Option.bind_eq_some_iff] at h
      obtain ⟨⟨escape, after⟩, hescape, ⟨more, last, final⟩, hparts, heq⟩ := h
      cases heq
      exact hmore ((hat.cons rfl).of_append (scanEscape_append hescape)) hparts
    next =>
      simp only [List.span_eq_takeWhile_dropWhile] at h
      split at h
      next => cases h
      next =>
        simp only [bind, Option.bind_eq_some_iff] at h
        obtain ⟨⟨more, last, final⟩, hparts, heq⟩ := h
        cases heq
        exact hmore (hat.of_append List.takeWhile_append_dropWhile) hparts

theorem encodingMark_spec {start : Nat} (hat : At source start cs) :
    (∀ l ∈ (encodingMark start cs).1, OnCharacters source l.ranges) ∧
      At source (encodingMark start cs).2.1 (encodingMark start cs).2.2 := by
  rw [encodingMark.eq_def]
  split
  next u rest =>
    split
    next hmark =>
      have hsize : u.utf8Size = 1 := by
        rcases (Bool.or_eq_true _ _).mp hmark with h | h <;> rw [eq_of_beq h] <;> rfl
      have hstop : At source (start + 2) rest := (hat.cons hsize).cons rfl
      exact ⟨List.forall_mem_singleton.mpr (hat.leaf _ _ hstop), hstop⟩
    next => exact ⟨List.forall_mem_nil _, hat⟩
  next => exact ⟨List.forall_mem_nil _, hat⟩

/-- What a scanner of literals finds: parts between characters of the source, and the rest that is
left where the literal stops. -/
def Finds (source : String) (found : Option (Concrete × Nat × List Char)) : Prop :=
  ∀ parts stop rest, found = some (parts, stop, rest) →
    OnCharacters source parts.ranges ∧ At source stop rest

theorem finds_scanString {start : Nat} (hquote : At source start ('"' :: cs)) :
    Finds source (scanString start cs) := by
  intro parts stop rest h
  have hat := hquote.cons rfl
  simp only [scanString, bind, Option.bind_eq_some_iff] at h
  obtain ⟨⟨leaves, next, tail⟩, hparts, heq⟩ := h
  cases heq
  obtain ⟨hleaves, hnext⟩ := stringParts_spec hat hparts
  obtain ⟨hmark, hstop⟩ := encodingMark_spec hnext
  refine ⟨onCharacters_node _ ?_, hstop⟩
  exact List.forall_mem_append.mpr
    ⟨List.forall_mem_cons.mpr ⟨hquote.leaf _ _ hat, hleaves⟩, hmark⟩

theorem finds_scanCharacter {start : Nat} (hquote : At source start ('\'' :: cs)) :
    Finds source (scanCharacter start cs) := by
  intro parts stop rest h
  have hat := hquote.cons rfl
  simp only [scanCharacter, bind, Option.bind_eq_some_iff] at h
  obtain ⟨⟨kind, content, tail⟩, hcontent, h⟩ := h
  have hend := hat.of_append (characterContent_append hcontent)
  dsimp only at h
  split at h
  next after =>
    cases h
    have hstop := hend.cons rfl
    refine ⟨onCharacters_node _ ?_, hstop⟩
    simp only [List.forall_mem_cons]
    exact ⟨hquote.leaf _ _ hat, hat.leaf _ _ hend, hend.leaf _ _ hstop,
      List.forall_mem_nil _⟩
  next => cases h

theorem finds_scanVerbatim {start : Nat} (hmark : At source start ('@' :: '"' :: cs)) :
    Finds source (scanVerbatim start cs) := by
  intro parts stop rest h
  simp only [scanVerbatim, bind, Option.bind_eq_some_iff] at h
  obtain ⟨⟨text, tail⟩, htext, heq⟩ := h
  cases heq
  have hat := ((hmark.cons rfl).cons rfl).of_append (verbatimRest_append htext)
  have hstop := (encodingMark_spec hat).2
  exact ⟨hmark.leaf _ _ hstop, hstop⟩

theorem finds_scanRaw {count start : Nat}
    (hquotes : At source start (List.replicate count '"' ++ cs)) :
    Finds source (scanRaw count start cs) := by
  intro parts stop rest h
  simp only [scanRaw, bind, Option.bind_eq_some_iff] at h
  obtain ⟨⟨content, tail⟩, hcontent, heq⟩ := h
  cases heq
  have hopened := hquotes.replicate rfl
  have hread := hopened.of_append (rawContent_append hcontent)
  have hclosed := hread.replicate rfl
  obtain ⟨hmark, hstop⟩ := encodingMark_spec hclosed
  refine ⟨onCharacters_node _ ?_, hstop⟩
  simp only [List.forall_mem_append, List.forall_mem_cons]
  exact ⟨⟨hquotes.leaf _ _ hopened, hopened.leaf _ _ hread, hread.leaf _ _ hclosed,
    List.forall_mem_nil _⟩, hmark⟩

/-! ### Directives -/

theorem scanDirectiveWord_append (cs : List Char) :
    (scanDirectiveWord cs).1 ++ (scanDirectiveWord cs).2 = cs := by
  cases cs with
  | nil => rfl
  | cons c cs =>
    rw [scanDirectiveWord]
    split
    · rw [List.span_eq_takeWhile_dropWhile, List.takeWhile_append_dropWhile]
    · rfl

theorem onCharacters_directiveLeaf {word cs' : List Char} (hat : At source offset cs)
    (hstop : At source stop cs') : OnCharacters source (directiveLeaf word offset stop).ranges := by
  rw [directiveLeaf]
  split
  · exact hat.leaf _ _ hstop
  · split <;> exact hat.leaf _ _ hstop

/-- The words of a directive stand between characters, if its line does. -/
theorem onCharacters_directiveWords {limit start : Nat} (hat : At source start (cs ++ rest)) :
    ∀ w ∈ directiveWords limit start cs, OnCharacters source w.1.ranges := by
  induction limit generalizing start cs with
  | zero => exact List.forall_mem_nil _
  | succ limit ih =>
    rw [directiveWords]
    simp only [List.span_eq_takeWhile_dropWhile]
    split
    · exact List.forall_mem_nil _
    · rw [← List.takeWhile_append_dropWhile (p := fun c => isLineSpace c || c == '\r') (l := cs),
        List.append_assoc] at hat
      have hword := hat.append
      rw [← scanDirectiveWord_append (cs.dropWhile _), List.append_assoc] at hword
      have hstop := hword.append
      exact List.forall_mem_cons.mpr ⟨onCharacters_directiveLeaf hword hstop, ih hstop⟩

theorem onCharacters_directiveArgument {start : Nat} (hat : At source start (cs ++ rest)) :
    ∀ l ∈ directiveArgument start cs, OnCharacters source l.ranges := by
  simp only [directiveArgument, List.span_eq_takeWhile_dropWhile]
  split
  · exact List.forall_mem_nil _
  · rw [← List.takeWhile_append_dropWhile (p := isLineSpace) (l := cs), List.append_assoc] at hat
    have hargument := hat.append
    exact List.forall_mem_singleton.mpr (hargument.leaf _ _ hargument.append)

theorem onCharacters_directiveParts {word : String} {start : Nat} {parts : List Concrete}
    (hat : At source start (cs ++ rest)) (h : directiveParts word start cs = some parts) :
    ∀ l ∈ parts, OnCharacters source l.ranges := by
  rw [directiveParts] at h
  split at h
  next =>
    cases h
    exact onCharacters_directiveArgument hat
  next =>
    split at h
    next =>
      split at h
      next => cases h
      next =>
        cases h
        exact onCharacters_directiveArgument hat
    next =>
      split at h
      next =>
        cases h
        exact List.forall_mem_map.mpr (onCharacters_directiveWords hat)
      next => cases h

theorem finds_standaloneDirective {start : Nat} (hat : At source start cs) :
    Finds source (standaloneDirective start cs) := by
  intro parts stop rest h
  simp only [standaloneDirective, bind, Option.bind_eq_some_iff,
    List.span_eq_takeWhile_dropWhile] at h
  obtain ⟨⟨word, mark, tail⟩, hmark, words, hwords, h⟩ := h
  have hline := hat.of_append (scanDirective_append hmark)
  split at h
  next => cases h
  next =>
    cases h
    rw [← List.takeWhile_append_dropWhile (p := (· != '\n')) (l := tail)] at hline
    refine ⟨onCharacters_node _ (List.forall_mem_cons.mpr ⟨hat.leaf _ _ hline, ?_⟩), hline.append⟩
    exact onCharacters_directiveParts hline hwords

/-! ### Interpolated strings -/

/-- As many copies of a character as a text starts with, or fewer, can be cut off it. -/
theorem replicate_append_drop {c : Char} {n : Nat} (h : n ≤ (cs.takeWhile (· == c)).length) :
    List.replicate n c ++ cs.drop n = cs := by
  have htake : cs.take n = List.replicate n c := by
    have htaken : cs.take n <+: cs := List.take_prefix n cs
    have hcopies : cs.takeWhile (· == c) <+: cs := List.takeWhile_prefix _
    have hlength : n ≤ cs.length := Nat.le_trans h hcopies.length_le
    refine List.eq_replicate_iff.mpr ⟨List.length_take_of_le hlength, fun d hd => ?_⟩
    have hfirst : cs.take n <+: cs.takeWhile (· == c) :=
      List.prefix_of_prefix_length_le htaken hcopies (by rwa [List.length_take_of_le hlength])
    exact eq_of_beq (List.all_eq_true.mp List.all_takeWhile d (hfirst.subset hd))
  rw [← htake, List.take_append_drop]

/-- The numbers of quotes that an interpolated string can have on each side. -/
def Frame.Closes : Frame → Prop
  | .text _ quotes _ => quotes = 1 ∨ 3 ≤ quotes
  | .hole _ _ => True

theorem interpolationOpening_spec {mark : List Char} {verbatim : Bool} {quotes braces : Nat}
    (h : interpolationOpening cs = some (mark, verbatim, quotes, braces, rest)) :
    mark ++ (List.replicate quotes '"' ++ rest) = cs ∧ (quotes = 1 ∨ 3 ≤ quotes) := by
  rw [interpolationOpening.eq_def] at h
  split at h
  next =>
    cases h
    exact ⟨rfl, .inl rfl⟩
  next =>
    cases h
    exact ⟨rfl, .inl rfl⟩
  next tail _ =>
    simp only [List.span_eq_takeWhile_dropWhile] at h
    split at h
    next hthree =>
      cases h
      rw [replicate_append_drop (Nat.le_refl _), List.takeWhile_append_dropWhile]
      exact ⟨rfl, .inr hthree⟩
    next =>
      split at h
      next => cases h
      next hone =>
        cases h
        rw [replicate_append_drop (by omega), List.takeWhile_append_dropWhile]
        exact ⟨rfl, .inl rfl⟩
  next => cases h

theorem interpolationText_append (verbatim : Bool) (quotes limit : Nat) (cs : List Char) :
    (interpolationText verbatim quotes limit cs).1 ++
      (interpolationText verbatim quotes limit cs).2 = cs := by
  induction limit generalizing cs with
  | zero => rfl
  | succ limit ih =>
    rw [interpolationText]
    split
    · rfl
    · rw [List.append_assoc, ih, List.take_append_drop]

/-- The text of an interpolated string is empty only where it stops at once. -/
theorem textUnit_eq_zero {verbatim : Bool} {quotes limit : Nat}
    (h : (interpolationText verbatim quotes (limit + 1) cs).1 = []) :
    textUnit verbatim quotes cs = 0 := by
  rw [interpolationText] at h
  split at h
  next hunit => exact hunit
  next hunit =>
    obtain ⟨htake, -⟩ := List.append_eq_nil_iff.mp h
    rcases List.take_eq_nil_iff.mp htake with hzero | rfl
    · exact absurd hzero hunit
    · rfl

/-- Where the text of an interpolated string stops at a quote, its closing quotes stand. -/
theorem replicate_append_of_textUnit {verbatim : Bool} {quotes : Nat}
    (hquotes : quotes = 1 ∨ 3 ≤ quotes) (h : textUnit verbatim quotes ('"' :: cs) = 0) :
    List.replicate quotes '"' ++ ('"' :: cs).drop quotes = '"' :: cs := by
  rcases hquotes with rfl | hthree
  · rfl
  · rw [textUnit.eq_def] at h
    split at h
    next heq => cases heq
    next heq => cases heq
    next heq => cases heq
    next tail heq =>
      cases heq
      split at h
      next => cases h
      next =>
        split at h
        next => cases h
        next hstarts =>
          have hquotes :
              Text.startsWith (List.replicate quotes '"') ('"' :: '"' :: tail) = true := by
            simpa [hthree] using hstarts
          obtain ⟨rest, hrest⟩ := exists_append_of_startsWith hquotes
          rw [hrest, List.drop_left' List.length_replicate]
    next => exact absurd h (by simp [hthree])
    next _ hne => exact absurd rfl (hne cs)

/-! ### Steps -/

/-- The tokens of a step, and what it sets aside, start and stop between characters of the source,
and it goes on where it stopped. -/
structure Step.Aligned (source : String) (s : Step) : Prop where
  tokens : ∀ t ∈ s.tokens, Token.Aligned source t
  extras : ∀ e ∈ s.extras, OnCharacters source e.ranges
  frames : ∀ f ∈ s.frames, f.Closes
  rest : At source s.offset s.rest

namespace Step

variable {frames : List Frame}

theorem aligned_skip (hframes : ∀ f ∈ frames, f.Closes) (hat : At source offset cs)
    (hcs : text ++ rest = cs) : (skip frames offset text rest).Aligned source where
  tokens := List.forall_mem_nil _
  extras := List.forall_mem_nil _
  frames := hframes
  rest := hat.of_append hcs

theorem aligned_aside {extra : Concrete} (hframes : ∀ f ∈ frames, f.Closes)
    (hextra : OnCharacters source extra.ranges) (hstop : At source stop rest) :
    (aside frames extra stop rest).Aligned source where
  tokens := List.forall_mem_nil _
  extras := List.forall_mem_singleton.mpr hextra
  frames := hframes
  rest := hstop

theorem aligned_token {cls : TokenClass} (hframes : ∀ f ∈ frames, f.Closes)
    (hcls : ∀ parts, cls ≠ .literal parts) (hat : At source offset cs) (hcs : text ++ rest = cs) :
    (token frames offset cls text rest).Aligned source where
  tokens := List.forall_mem_singleton.mpr (hat.token (hat.of_append hcs) hcls)
  extras := List.forall_mem_nil _
  frames := hframes
  rest := hat.of_append hcs

theorem aligned_literal {found : Option (Concrete × Nat × List Char)}
    (hframes : ∀ f ∈ frames, f.Closes) (hat : At source offset cs) (hfound : Finds source found) :
    (literal frames offset cs found).Aligned source := by
  cases found with
  | none =>
    exact aligned_token hframes nofun hat (List.take_append_drop 1 cs)
  | some found =>
    obtain ⟨parts, stop, rest⟩ := found
    obtain ⟨hparts, hstop⟩ := hfound parts stop rest rfl
    refine ⟨List.forall_mem_singleton.mpr ⟨hat.isValid, hstop.isValid, fun parts' h => ?_⟩,
      List.forall_mem_nil _, hframes, hstop⟩
    cases h
    exact hparts

end Step

variable {frames : List Frame}

theorem aligned_braceStep {verbatim : Bool} {quotes braces : Nat} {outer : List Frame}
    (hframes : ∀ f ∈ Frame.text verbatim quotes braces :: outer, f.Closes)
    (hat : At source offset cs) :
    (braceStep verbatim quotes braces outer offset cs).Aligned source := by
  simp only [braceStep]
  split
  next hrun =>
    simp only [Bool.and_eq_true, decide_eq_true_eq] at hrun
    split
    next =>
      exact Step.aligned_token (List.forall_mem_cons.mpr ⟨trivial, hframes⟩) nofun hat
        (replicate_append_drop hrun.2)
    next =>
      exact Step.aligned_token hframes nofun hat (replicate_append_drop (Nat.sub_le _ _))
  next =>
    refine Step.aligned_token hframes nofun hat ?_
    have hbraces : cs.takeWhile (· == '{') <+: cs := List.takeWhile_prefix _
    rw [List.append_assoc, interpolationText_append, List.prefix_iff_eq_append.mp hbraces]

theorem aligned_textStep {verbatim : Bool} {quotes braces : Nat} {outer : List Frame} {s : Step}
    (hframes : ∀ f ∈ Frame.text verbatim quotes braces :: outer, f.Closes)
    (hat : At source offset cs)
    (h : textStep verbatim quotes braces outer offset cs = some s) : s.Aligned source := by
  have hsplit := interpolationText_append verbatim quotes (cs.length + 1) cs
  obtain ⟨hcloses, houter⟩ := List.forall_mem_cons.mp hframes
  simp only [textStep] at h
  split at h
  next =>
    cases h
    exact Step.aligned_token hframes nofun hat hsplit
  next hempty =>
    have hunit := textUnit_eq_zero (by simpa using hempty)
    split at h
    next => cases h
    next tail =>
      cases h
      exact Step.aligned_token houter nofun hat
        (replicate_append_of_textUnit hcloses hunit)
    next tail =>
      split at h
      next escape after hescape =>
        cases h
        refine Step.aligned_token hframes nofun hat ?_
        rw [List.cons_append, scanEscape_append hescape]
      next =>
        cases h
        exact Step.aligned_token hframes nofun hat rfl
    next =>
      cases h
      exact aligned_braceStep hframes hat

theorem aligned_closingStep {s : Step} (hframes : ∀ f ∈ frames, f.Closes)
    (hat : At source offset cs) (h : closingStep frames offset cs = some s) :
    s.Aligned source := by
  rw [closingStep.eq_def] at h
  split at h
  next braces outer =>
    dsimp only at h
    split at h
    next hstarts =>
      cases h
      obtain ⟨rest, rfl⟩ := exists_append_of_startsWith hstarts
      refine Step.aligned_token (List.forall_mem_cons.mp hframes).2 nofun hat ?_
      rw [List.drop_left' List.length_replicate]
    next =>
      split at h
      next tail =>
        simp only [List.span_eq_takeWhile_dropWhile] at h
        cases h
        have hcolon := hat.cons rfl
        exact ⟨List.forall_mem_singleton.mpr (hat.token hcolon nofun), List.forall_mem_nil _,
          hframes, hcolon.of_append List.takeWhile_append_dropWhile⟩
      next => cases h
  next => cases h

theorem aligned_directiveStep (hframes : ∀ f ∈ frames, f.Closes) (hat : At source offset cs) :
    (directiveStep frames offset cs).Aligned source := by
  rw [directiveStep]
  split
  next node stop after heq =>
    obtain ⟨hnode, hstop⟩ := finds_standaloneDirective hat node stop after heq
    exact Step.aligned_aside hframes hnode hstop
  next =>
    split
    next word text after heq =>
      have hstop := hat.of_append (scanDirective_append heq)
      exact ⟨List.forall_mem_singleton.mpr (hat.token hstop nofun), List.forall_mem_nil _, hframes,
        hstop⟩
    next =>
      exact Step.aligned_token hframes nofun hat (List.take_append_drop 1 cs)

theorem closes_nest {change : Nat → Nat} (hframes : ∀ f ∈ frames, f.Closes) :
    ∀ f ∈ Frame.nest change frames, f.Closes := by
  rw [Frame.nest.eq_def]
  split
  next =>
    exact List.forall_mem_cons.mpr ⟨trivial, (List.forall_mem_cons.mp hframes).2⟩
  next => exact hframes

theorem closes_afterMark {mark : List Char} (hframes : ∀ f ∈ frames, f.Closes) :
    ∀ f ∈ Frame.afterMark mark frames, f.Closes := by
  rw [Frame.afterMark]
  split
  · exact closes_nest hframes
  · split
    · exact closes_nest hframes
    · exact hframes

/-- A scanner of one leaf finds what its text is. -/
theorem finds_leaf (kind : String) (hat : At source offset cs) (hcs : text ++ rest = cs) :
    Finds source (some (.leaf kind true offset (offset + byteLength text),
      offset + byteLength text, rest)) := by
  intro parts stop rest' h
  cases h
  exact ⟨hat.leaf _ _ (hat.of_append hcs), hat.of_append hcs⟩

theorem aligned_plainStep {c : Char} (hframes : ∀ f ∈ frames, f.Closes)
    (hat : At source offset (c :: cs)) : (plainStep frames offset c cs).Aligned source := by
  simp only [plainStep, List.span_eq_takeWhile_dropWhile]
  split
  next => exact Step.aligned_skip hframes hat List.takeWhile_append_dropWhile
  next =>
    split
    next => exact Step.aligned_literal hframes hat (finds_leaf _ hat (scanNumber_append _))
    next =>
      split
      next f rest hfraction =>
        refine Step.aligned_literal hframes hat (finds_leaf _ hat ?_)
        rw [realTail_append, fraction?_append hfraction]
      next =>
        split
        next word rest hword =>
          exact Step.aligned_token hframes nofun hat (scanWord_append hword)
        next =>
          split
          next word rest hword =>
            exact Step.aligned_token hframes nofun hat (scanVerbatimWord_append hword)
          next =>
            split
            next mark rest hmark =>
              exact Step.aligned_token (closes_afterMark hframes) nofun hat
                (scanMark_append hmark)
            next => exact Step.aligned_token hframes nofun hat rfl

theorem aligned_codeStep {s : Step} (hframes : ∀ f ∈ frames, f.Closes)
    (hat : At source offset cs) (h : codeStep frames offset cs = some s) : s.Aligned source := by
  rw [codeStep.eq_def] at h
  split at h
  next => cases h
  next tail =>
    cases h
    have hstop := ((hat.cons rfl).cons rfl).of_append (lineComment_append tail)
    exact Step.aligned_aside hframes (hat.leaf _ _ hstop) hstop
  next tail =>
    split at h
    next text after hcomment =>
      cases h
      have hstop := ((hat.cons rfl).cons rfl).of_append (blockComment_append hcomment)
      exact Step.aligned_aside hframes (hat.leaf _ _ hstop) hstop
    next =>
      cases h
      exact Step.aligned_token hframes nofun hat rfl
  next =>
    cases h
    exact aligned_directiveStep hframes hat
  next tail =>
    cases h
    exact Step.aligned_literal hframes hat (finds_scanCharacter hat)
  next tail =>
    cases h
    refine Step.aligned_literal hframes hat ?_
    split
    next =>
      refine finds_scanRaw ?_
      rwa [replicate_append_drop (Nat.le_refl _)]
    next => exact finds_scanString hat
  next tail =>
    cases h
    exact Step.aligned_literal hframes hat (finds_scanVerbatim hat)
  next c tail _ _ _ _ _ _ =>
    split at h
    next mark verbatim quotes braces after hopening =>
      cases h
      obtain ⟨hsplit, hquotes⟩ := interpolationOpening_spec hopening
      have hquote := hat.of_append hsplit
      have hstop := hquote.replicate rfl
      refine ⟨?_, List.forall_mem_nil _,
        List.forall_mem_cons.mpr ⟨hquotes, hframes⟩, hstop⟩
      simp only [List.forall_mem_cons]
      exact ⟨hat.token hquote nofun, hquote.token hstop nofun, List.forall_mem_nil _⟩
    next =>
      cases h
      exact aligned_plainStep hframes hat

/-- **A step keeps between characters.** -/
theorem aligned_step {s : Step} (hframes : ∀ f ∈ frames, f.Closes) (hat : At source offset cs)
    (h : step frames offset cs = some s) : s.Aligned source := by
  rw [step.eq_def] at h
  split at h
  next => exact aligned_textStep hframes hat h
  next =>
    rcases Option.or_eq_some_iff.mp h with h | ⟨-, h⟩
    · exact aligned_closingStep hframes hat h
    · exact aligned_codeStep hframes hat h

/-- All tokens and all that is set aside start and stop between characters of the source. -/
structure Lexed.Aligned (source : String) (l : Lexed) : Prop where
  tokens : ∀ t ∈ l.tokens, Token.Aligned source t
  extras : ∀ e ∈ l.extras, OnCharacters source e.ranges

theorem aligned_lexFrom (limit : Nat) (hframes : ∀ f ∈ frames, f.Closes)
    (hat : At source offset cs) : (lexFrom limit frames offset cs).Aligned source := by
  have hnil : (⟨[], []⟩ : Lexed).Aligned source :=
    ⟨List.forall_mem_nil _, List.forall_mem_nil _⟩
  induction limit generalizing frames offset cs with
  | zero => exact hnil
  | succ limit ih =>
    rw [lexFrom]
    split
    next => exact hnil
    next found heq =>
      have hfound := aligned_step hframes hat heq
      have hlater := ih hfound.frames hfound.rest
      exact ⟨List.forall_mem_append.mpr ⟨hfound.tokens, hlater.tokens⟩,
        List.forall_mem_append.mpr ⟨hfound.extras, hlater.extras⟩⟩

end Lexer

/-- The tokens of a source, its comments and its directives start and stop between characters. -/
theorem aligned_lex (source : String) : (lex source).Aligned source :=
  Lexer.aligned_lexFrom _ (List.forall_mem_nil _) (Lexer.At.start source)

end ViewLint
