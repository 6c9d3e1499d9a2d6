import DScope.Number.Integer

namespace DScope

/-!
# Places in source text

A position is a line and a column, both counted from zero. Positions are
ordered line first, which is the order in which "declared before" is decided.
A span is the half-open range between two positions.
-/

structure Position where
  line : Nat
  column : Nat
deriving Repr, DecidableEq

namespace Position

def before (first second : Position) : Bool :=
  first.line < second.line ||
    (first.line == second.line && first.column < second.column)

/-- Whether the first position does not come after the second. -/
def notAfter (first second : Position) : Bool :=
  !second.before first

end Position

/-- The half-open range of positions from `start` up to `finish`. -/
structure Span where
  start : Position
  finish : Position
deriving Repr, DecidableEq

namespace Span

/-- The span of the whole lines from `first` to `last`. -/
def lines (first last : Nat) : Span :=
  ⟨⟨first, 0⟩, ⟨last + 1, 0⟩⟩

/-- The span of the whole lines from `first` to `last`, unless the line after
`last`, where the span ends, has a number too large for a 64-bit word. -/
def lines? (first last : Nat) : Option Span :=
  if Integer.fitsWord (last + 1) then some (lines first last) else none

def contains (span : Span) (position : Position) : Bool :=
  span.start.notAfter position && position.before span.finish

def startsBefore (span : Span) (position : Position) : Bool :=
  span.start.before position

/-- The least span that holds both spans. -/
def cover (span other : Span) : Span where
  start := if other.start.before span.start then other.start else span.start
  finish := if span.finish.before other.finish then other.finish else span.finish

end Span

end DScope
