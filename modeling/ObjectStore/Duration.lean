/-!
# Spans of time

A span in whole nanoseconds, and its text: the largest unit of which there is a whole one, then the
fraction without zeros at its end (`1.5ms`, `1.000001s`, `0ns`).
-/

namespace ObjectStore

-- Powers are those of the core library, also where others are in sight.
attribute [local instance (high)] instPowNat

/-- A span of time. -/
structure Duration where
  /-- Its length in nanoseconds. -/
  nanoseconds : Nat
  deriving DecidableEq, Repr

namespace Duration

/-- A span in microseconds. -/
def ofMicroseconds (n : Nat) : Duration := ⟨n * 1000⟩

/-- A span in milliseconds. -/
def ofMilliseconds (n : Nat) : Duration := ⟨n * 1000000⟩

/-- The whole milliseconds of a span. -/
def milliseconds (d : Duration) : Nat := d.nanoseconds / 1000000

/-- The lowest `places` decimal digits of `n`, highest first. -/
def digits : (places n : Nat) → List Char
  | 0, _ => []
  | places + 1, n => digits places (n / 10) ++ [Nat.digitChar (n % 10)]

/-- Takes zeros off the end. -/
def dropTrailingZeros (ds : List Char) : List Char := (ds.reverse.dropWhile (· == '0')).reverse

/-- A number of units, of which there are `10 ^ places` nanoseconds in one. -/
def inUnit (places : Nat) (unit : String) (nanoseconds : Nat) : String :=
  let fraction := dropTrailingZeros (digits places (nanoseconds % 10 ^ places))
  toString (nanoseconds / 10 ^ places) ++
    (if fraction.isEmpty then "" else "." ++ String.ofList fraction) ++ unit

/-- The text of a span. -/
def text (d : Duration) : String :=
  if 1000000000 ≤ d.nanoseconds then inUnit 9 "s" d.nanoseconds
  else if 1000000 ≤ d.nanoseconds then inUnit 6 "ms" d.nanoseconds
  else if 1000 ≤ d.nanoseconds then inUnit 3 "µs" d.nanoseconds
  else inUnit 0 "ns" d.nanoseconds

end Duration

end ObjectStore
