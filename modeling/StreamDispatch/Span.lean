import StreamDispatch.Number.Word

/-!
# Spans of time

A `Span` is a length of time, counted in nanoseconds. Configuration knows spans as whole
milliseconds in an unsigned 64-bit number: `Span.millis` is the whole number of
milliseconds in a span, `Span.millis64` the same cut off at the greatest such number,
and `Span.ceilMillis` the first whole millisecond at which a wait of that length is over.

## Main statements

* `Span.millis_ofMillis`: reading back what was written in milliseconds.
* `Span.ceilMillis_ofMillis`: a wait of whole milliseconds is not prolonged.
-/

namespace StreamDispatch

/-- A length of time. -/
structure Span where
  /-- Its length in nanoseconds. -/
  nanos : Nat
  deriving DecidableEq, Repr, Inhabited

namespace Span

/-- A span of whole milliseconds. -/
def ofMillis (ms : Nat) : Span := ⟨ms * 1000000⟩

/-- A span of whole seconds and nanoseconds. -/
def ofSeconds (s ns : Nat) : Span := ⟨s * 1000000000 + ns⟩

/-- The whole seconds in a span. -/
def seconds (d : Span) : Nat := d.nanos / 1000000000

/-- What is left of a span after its whole seconds, in nanoseconds. -/
def subsecNanos (d : Span) : Nat := d.nanos % 1000000000

/-- The whole milliseconds in a span. -/
def millis (d : Span) : Nat := d.nanos / 1000000

/-- The whole milliseconds in a span, cut off at the greatest 64-bit number. -/
def millis64 (d : Span) : Nat := min d.millis maxWord64

/-- The least number of whole milliseconds that is no shorter than the span. -/
def ceilMillis (d : Span) : Nat := (d.nanos + 999999) / 1000000

@[simp] theorem millis_ofMillis (ms : Nat) : (ofMillis ms).millis = ms := by
  simp only [ofMillis, millis]
  omega

@[simp] theorem ceilMillis_ofMillis (ms : Nat) : (ofMillis ms).ceilMillis = ms := by
  simp only [ofMillis, ceilMillis]
  omega

end Span

end StreamDispatch
