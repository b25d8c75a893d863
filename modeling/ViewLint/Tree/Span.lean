/-!
# Spans

A span is a range of byte offsets in the UTF-8 form of a text. Spans that come with data from
outside may run backwards; such a span is empty.
-/

namespace ViewLint

/-- The byte offsets from `start` up to, and without, `stop`. -/
structure Span where
  start : Nat
  stop : Nat
deriving DecidableEq, Repr, Inhabited

namespace Span

/-- The number of bytes of a span, zero for one that runs backwards. -/
def length (s : Span) : Nat :=
  s.stop - s.start

/-- Whether a span has no bytes. -/
def isEmpty (s : Span) : Bool :=
  s.length == 0

/-- Whether `inner` starts no earlier and stops no later than `s`. -/
def contains (s inner : Span) : Bool :=
  decide (s.start ≤ inner.start) && decide (inner.stop ≤ s.stop)

/-- The form `start..stop`, used in messages. -/
def render (s : Span) : String :=
  s!"{s.start}..{s.stop}"

end Span

end ViewLint
