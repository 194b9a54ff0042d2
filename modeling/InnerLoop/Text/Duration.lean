/-!
# Spans of time and their written form

A span is counted in nanoseconds and written in the largest unit of which there is at least one,
with as many decimal places as are needed and no more: `120s`, `1.5s`, `250ms`, `1µs`, `0ns`.

- `Duration`: a span.
- `Duration.render`: its written form.
-/

namespace InnerLoop

/-- A span of time. -/
structure Duration where
  /-- Its length in nanoseconds. -/
  nanos : Nat
  deriving DecidableEq, Repr, Inhabited

namespace Duration

/-- A span of whole milliseconds. -/
def ofMillis (n : Nat) : Duration := ⟨n * 1000000⟩

/-- The decimal places of `part / 10 ^ places`, without trailing zeros. -/
def decimals (places part : Nat) : List Char :=
  let digits := (toString part).toList
  let padded := List.replicate (places - digits.length) '0' ++ digits
  (padded.reverse.dropWhile (· = '0')).reverse

/-- `nanos` in a unit of `10 ^ places` nanoseconds. -/
def inUnit (nanos places : Nat) (unit : String) : String :=
  let whole := toString (nanos / Nat.pow 10 places)
  match decimals places (nanos % Nat.pow 10 places) with
  | [] => whole ++ unit
  | ds => whole ++ "." ++ String.ofList ds ++ unit

/-- The span in the largest unit that it reaches. -/
def render (d : Duration) : String :=
  if Nat.pow 10 9 ≤ d.nanos then inUnit d.nanos 9 "s"
  else if Nat.pow 10 6 ≤ d.nanos then inUnit d.nanos 6 "ms"
  else if Nat.pow 10 3 ≤ d.nanos then inUnit d.nanos 3 "µs"
  else inUnit d.nanos 0 "ns"

end Duration

end InnerLoop
