/-!
# Spans of time

A length of time in seconds and nanoseconds, and how it is shown: in the largest unit that leaves a
whole part, with the fraction's trailing zeros cut.

Contents:
* `Span`: a length of time, `Span.ofMillis`, `Span.add`, `Span.total`.
* `Span.render`: the shown form.
-/

namespace BootEngine.Time

/-- A length of time; fewer than a thousand million nanoseconds beside the seconds. -/
structure Span where
  seconds : Nat
  nanos : Nat
  deriving DecidableEq, Repr, Inhabited

namespace Span

/-- No time. -/
def zero : Span := ⟨0, 0⟩

/-- Nanoseconds carried into seconds. -/
def normal (seconds nanos : Nat) : Span := ⟨seconds + nanos / 1000000000, nanos % 1000000000⟩

/-- A number of milliseconds. -/
def ofMillis (ms : Nat) : Span := ⟨ms / 1000, ms % 1000 * 1000000⟩

/-- The sum of two spans. -/
def add (a b : Span) : Span := normal (a.seconds + b.seconds) (a.nanos + b.nanos)

/-- The sum of all spans. -/
def total (spans : List Span) : Span := spans.foldl add zero

/-- A whole part with a fraction of `places` digits, the fraction's trailing zeros cut. -/
def withFraction (whole fraction places : Nat) : String :=
  let digits := Nat.toDigits 10 fraction
  let padded := List.replicate (places - digits.length) '0' ++ digits
  let kept := (padded.reverse.dropWhile (· == '0')).reverse
  toString whole ++ if kept.isEmpty then "" else "." ++ String.ofList kept

/-- The shown form: seconds, or below a second milliseconds, microseconds or nanoseconds. -/
def render (span : Span) : String :=
  if span.seconds > 0 then withFraction span.seconds span.nanos 9 ++ "s"
  else if span.nanos ≥ 1000000 then
    withFraction (span.nanos / 1000000) (span.nanos % 1000000) 6 ++ "ms"
  else if span.nanos ≥ 1000 then withFraction (span.nanos / 1000) (span.nanos % 1000) 3 ++ "µs"
  else toString span.nanos ++ "ns"

end Span

end BootEngine.Time
