/-!
# Spans

A span marks a stretch of source text by byte positions.  Positions count
through all source files of a program, laid end to end.
-/

namespace ScoreLowering

/-- `len` bytes from position `start` on. -/
structure Span where
  start : Nat
  len : Nat
  deriving DecidableEq, Repr

namespace Span

/-- The greatest position that can be counted to, in 64 bits. -/
def lastPosition : Nat := 0xffffffffffffffff

/-- The position after the last byte.  There is none if it is too great. -/
def stop? (span : Span) : Option Nat :=
  if span.start + span.len ≤ lastPosition then some (span.start + span.len) else none

def isEmpty (span : Span) : Bool :=
  span.len = 0

/-- From the start of this span to the end of another one, which must not lie
before that start. -/
def until? (span other : Span) : Option Span := do
  let stop ← other.stop?
  if span.start ≤ stop then some ⟨span.start, stop - span.start⟩ else none

/-- The same stretch, with positions counted from `offset` on.  There is none
if the span starts before `offset`. -/
def relativeTo? (span : Span) (offset : Nat) : Option Span :=
  if offset ≤ span.start then some ⟨span.start - offset, span.len⟩ else none

end Span
end ScoreLowering
