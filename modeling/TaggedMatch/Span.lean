/-!
# Places in a source text

A span is a half-open range of bytes, `start` included and `stop` not. Patterns that were built
without a text carry the dummy span `0..0`, so every node of a pattern has a span to report.
-/

namespace TaggedMatch

/-- A range of bytes; nothing forces `start ≤ stop`, an inverted range is merely empty. -/
structure Span where
  start : UInt32
  stop : UInt32
deriving DecidableEq, Repr

/-- Why a pair of positions is no span: a position does not fit in 32 bits. -/
inductive Span.RangeError where
  | startTooLarge (position : Nat)
  | endTooLarge (position : Nat)
deriving DecidableEq, Repr

namespace Span

/-- The span of a node that came from no text. -/
def dummy : Span := ⟨0, 0⟩

/-- The span of two positions of any size; the start is judged first. -/
def ofRange (start stop : Nat) : Except RangeError Span :=
  if start < UInt32.size then
    if stop < UInt32.size then .ok ⟨start.toUInt32, stop.toUInt32⟩
    else .error (.endTooLarge stop)
  else .error (.startTooLarge start)

/-- How many bytes lie in the range; none in an inverted one. -/
def length (s : Span) : UInt32 :=
  if s.start ≤ s.stop then s.stop - s.start else 0

/-- Whether no byte lies in the range. -/
def isEmpty (s : Span) : Bool := s.stop ≤ s.start

/-- Whether this is the span of no text; the empty range at the start of a text is the same span. -/
def isDummy (s : Span) : Bool := s == dummy

/-- The least range that covers both; the dummy span is not neutral, it pulls the start to 0. -/
def merge (s t : Span) : Span :=
  ⟨min s.start t.start, max s.stop t.stop⟩

/-- The merge of all spans of a list, the dummy span for none. -/
def mergeAll : List Span → Span
  | [] => dummy
  | s :: rest => rest.foldl merge s

/-- The text of a span, `start..stop`. -/
def text (s : Span) : String := s!"{s.start}..{s.stop}"

/-- The wording of a range error. -/
def RangeError.message : RangeError → String
  | .startTooLarge position => s!"span start {position} exceeds u32::MAX"
  | .endTooLarge position => s!"span end {position} exceeds u32::MAX"

end Span

end TaggedMatch
