/-!
# Glob patterns

The patterns of ignore files. A star matches within a segment of a path, two stars that fill a
segment match any number of segments, and braces hold alternatives. Matching works on bytes, so a
question mark stands for one byte.

## Main definitions

* `Glob.Token`: the parts of a pattern.
* `Glob.parse?`: reads a pattern.
* `Glob.matches?`: whether a pattern matches a path.
-/

namespace ViewLint.Glob

/-- A part of a pattern. -/
inductive Token where
  | literal (c : Char)
  /-- One byte that is no slash. -/
  | any
  /-- Bytes without a slash. -/
  | zeroOrMore
  /-- Any number of segments at the start. -/
  | recursivePrefix
  /-- Everything below, at the end. -/
  | recursiveSuffix
  /-- Any number of segments in the middle. -/
  | recursiveMiddle
  /-- A byte in, or not in, some ranges. -/
  | oneOf (negated : Bool) (ranges : List (Char × Char))
  /-- One of some patterns. -/
  | alternates (branches : List (List Token))
deriving Repr, Inhabited

/-! ### Reading -/

/-- A group that is open: the tokens before it, last first, and its finished branches, last
first. -/
structure Group where
  before : List Token
  branches : List (List Token)

/-- The state of reading: the open groups, innermost first, the tokens of the current branch, last
first, and whether a bracket was met that nothing closes. -/
structure State where
  groups : List Group
  tokens : List Token
  bracketsPlain : Bool

namespace State

/-- The state with one more token. -/
def push (s : State) (t : Token) : State :=
  { s with tokens := t :: s.tokens }

/-- The state with two stars that stand for no segments of their own. -/
def pushStars (s : State) : State :=
  (s.push .zeroOrMore).push .zeroOrMore

/-- The state after an opening brace. -/
def openGroup (s : State) : State :=
  { s with groups := ⟨s.tokens, []⟩ :: s.groups, tokens := [] }

/-- The state after a comma, which divides branches inside a group. -/
def comma (s : State) : State :=
  match s.groups with
  | [] => s.push (.literal ',')
  | g :: gs =>
    { s with groups := { g with branches := s.tokens.reverse :: g.branches } :: gs, tokens := [] }

/-- The state after a closing brace, if a group is open. -/
def closeGroup (s : State) : Option State :=
  match s.groups with
  | [] => none
  | g :: gs =>
    let branches := (s.tokens.reverse :: g.branches).reverse
    some { s with groups := gs, tokens := .alternates branches :: g.before }

end State

/-- The state of reading a class: its ranges, last first, and whether a range is open. -/
structure ClassState where
  ranges : List (Char × Char)
  inRange : Bool

/-- The ranges with the last one ending at `c`, if it can. -/
def endRange (c : Char) : List (Char × Char) → Option (List (Char × Char))
  | (a, _) :: rest => if a ≤ c then some ((a, c) :: rest) else none
  | [] => none

/-- How reading a class ends. -/
inductive ClassResult where
  /-- The ranges, and what follows the closing bracket. -/
  | closed (ranges : List (Char × Char)) (rest : List Char)
  /-- No bracket closes the class. -/
  | unclosed
  /-- A range runs backwards. -/
  | invalid

/-- Reads the class after its opening bracket and the mark of negation. -/
def scanClass (first : Bool) (s : ClassState) : List Char → ClassResult
  | [] => .unclosed
  | c :: rest =>
    if c == ']' && !first then
      .closed (if s.inRange then ('-', '-') :: s.ranges else s.ranges).reverse rest
    else if c == '-' && !first && !s.inRange then scanClass false { s with inRange := true } rest
    else if s.inRange then
      match endRange c s.ranges with
      | some ranges => scanClass false ⟨ranges, false⟩ rest
      | none => .invalid
    else scanClass false ⟨(c, c) :: s.ranges, false⟩ rest

/-- Reads two stars, of which `before` is the character in front: the state and what is left. -/
def doubleStar (s : State) (before : Option Char) (rest : List Char) : State × List Char :=
  if s.tokens.isEmpty then
    match rest with
    | [] => (s.push .recursivePrefix, [])
    | '/' :: rest => (s.push .recursivePrefix, rest)
    | _ => (s.pushStars, rest)
  else
    let inGroup := !s.groups.isEmpty
    let atStart := before == some '/' ||
      (inGroup && (before == some ',' || before == some '\x7b'))
    if !atStart then (s.pushStars, rest)
    else
      let fill (suffix : Bool) (rest : List Char) : State × List Char :=
        match s.tokens with
        | .recursivePrefix :: _ => (s, rest)
        | .recursiveSuffix :: _ => (s, rest)
        | _ :: tokens =>
          ({ s with tokens := (if suffix then .recursiveSuffix else .recursiveMiddle) :: tokens },
            rest)
        | [] => (s, rest)
      match rest with
      | [] => fill true []
      | '/' :: after => fill false after
      | c :: _ =>
        if inGroup && (c == ',' || c == '\x7d') then fill true rest else (s.pushStars, rest)

/-- Reads a pattern; `before` is the character in front, and `steps` bounds the number of
parts. -/
def scan : Nat → State → Option Char → List Char → Option State
  | 0, s, _, _ => some s
  | _ + 1, s, _, [] => some s
  | steps + 1, s, before, c :: rest =>
    if c == '?' then scan steps (s.push .any) (some c) rest
    else if c == '*' then
      match rest with
      | '*' :: rest =>
        let (s, left) := doubleStar s before rest
        scan steps s (if left.length < rest.length then some '/' else some '*') left
      | _ => scan steps (s.push .zeroOrMore) (some c) rest
    else if c == '[' && !s.bracketsPlain then
      let (negated, inner) :=
        match rest with
        | '!' :: inner => (true, inner)
        | '^' :: inner => (true, inner)
        | _ => (false, rest)
      match scanClass true ⟨[], false⟩ inner with
      | .closed ranges left => scan steps (s.push (.oneOf negated ranges)) (some ']') left
      | .unclosed => scan steps { s.push (.literal '[') with bracketsPlain := true } (some c) rest
      | .invalid => none
    else if c == '\x7b' then scan steps s.openGroup (some c) rest
    else if c == '\x7d' then
      match s.closeGroup with
      | some s => scan steps s (some c) rest
      | none => none
    else if c == ',' then scan steps s.comma (some c) rest
    else if c == '\\' then
      match rest with
      | [] => none
      | e :: rest => scan steps (s.push (.literal e)) (some e) rest
    else scan steps (s.push (.literal c)) (some c) rest

/-- Reads a pattern. Braces must be closed, and a backslash must be followed by a character. -/
def parse? (pattern : List Char) : Option (List Token) :=
  match scan (pattern.length + 1) ⟨[], [], false⟩ none pattern with
  | some s => if s.groups.isEmpty then some s.tokens.reverse else none
  | none => none

/-! ### Matching -/

/-- The bytes of a character. -/
def charBytes (c : Char) : List UInt8 :=
  (String.singleton c).toUTF8.toList

/-- The byte of a slash. -/
def slash : UInt8 :=
  47

/-- The bytes that a range of characters stands for. -/
def rangeBytes (r : Char × Char) : List (UInt8 × UInt8) :=
  if r.1 == r.2 then (charBytes r.1).map fun b => (b, b)
  else
    let low := charBytes r.1
    let high := charBytes r.2
    low.dropLast.map (fun b => (b, b)) ++ [(low.getLastD 0, high.headD 0)] ++
      (high.drop 1).map fun b => (b, b)

/-- Whether a byte lies in some ranges. -/
def inClass (ranges : List (Char × Char)) (b : UInt8) : Bool :=
  (ranges.flatMap rangeBytes).any fun r => r.1 ≤ b && b ≤ r.2

/-- What follows the given bytes, if they stand at the front. -/
def afterBytes? : List UInt8 → List UInt8 → Option (List UInt8)
  | [], bs => some bs
  | a :: as, b :: bs => if a == b then afterBytes? as bs else none
  | _ :: _, [] => none

/-- Whether some end of the bytes fits, reached without passing a slash. -/
def withinSegment (k : List UInt8 → Bool) : List UInt8 → Bool
  | [] => k []
  | b :: bs => k (b :: bs) || (b != slash && withinSegment k bs)

/-- Whether some end of the bytes fits. -/
def someEnd (k : List UInt8 → Bool) : List UInt8 → Bool
  | [] => k []
  | b :: bs => k (b :: bs) || someEnd k bs

/-- Whether some end of the bytes after a slash fits. -/
def afterSomeSlash (k : List UInt8 → Bool) : List UInt8 → Bool
  | [] => false
  | b :: bs => (b == slash && k bs) || afterSomeSlash k bs

mutual

/-- Whether a part matches some bytes at the front, such that `k` holds of the rest. -/
def Token.run : Token → (List UInt8 → Bool) → List UInt8 → Bool
  | .literal c, k, bs =>
    match afterBytes? (charBytes c) bs with
    | some rest => k rest
    | none => false
  | .any, k, bs =>
    match bs with
    | b :: rest => b != slash && k rest
    | [] => false
  | .zeroOrMore, k, bs => withinSegment k bs
  | .recursivePrefix, k, bs => k bs || afterSomeSlash k bs
  | .recursiveSuffix, k, bs =>
    match bs with
    | b :: rest => b == slash && someEnd k rest
    | [] => false
  | .recursiveMiddle, k, bs =>
    match bs with
    | b :: rest => b == slash && (k rest || afterSomeSlash k rest)
    | [] => false
  | .oneOf negated ranges, k, bs =>
    match bs with
    | b :: rest => (inClass ranges b != negated) && k rest
    | [] => false
  | .alternates branches, k, bs =>
    if branches.all List.isEmpty then k bs else runSome branches k bs

/-- Whether the parts match one after the other. -/
def runAll : List Token → (List UInt8 → Bool) → List UInt8 → Bool
  | [], k, bs => k bs
  | t :: ts, k, bs => t.run (runAll ts k) bs

/-- Whether one of some branches matches; empty ones do not count. -/
def runSome : List (List Token) → (List UInt8 → Bool) → List UInt8 → Bool
  | [], _, _ => false
  | [] :: rest, k, bs => runSome rest k bs
  | (t :: ts) :: rest, k, bs => runAll (t :: ts) k bs || runSome rest k bs

end

/-- Whether a pattern matches a path. Two stars alone match everything. -/
def matches? (pattern : List Token) (path : String) : Bool :=
  match pattern with
  | [.recursivePrefix] => true
  | _ => runAll pattern List.isEmpty path.toUTF8.toList

end ViewLint.Glob
