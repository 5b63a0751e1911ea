import CoreTiming.Decimal.Binary

namespace CoreTiming.Decimal

/-- The number `digits * 10 ^ exponent`. -/
structure Scaled where
  digits : Nat
  exponent : Int
  deriving DecidableEq, Repr

/-- The numbers that round to `x`, in units of a quarter of its last place. -/
structure RoundingInterval where
  low : Nat
  high : Nat
  exponent : Int
  closed : Bool

def Binary.interval (x : Binary) : RoundingInterval where
  low := 4 * x.mantissa - if x.lowestOfBinade then 1 else 2
  high := 4 * x.mantissa + 2
  exponent := x.exponent - 2
  closed := x.mantissa % 2 = 0

def Scaled.compareTo (d : Scaled) (n : Nat) (exponent : Int) : Ordering :=
  compare (d.digits * Nat.pow 10 d.exponent.toNat * Nat.pow 2 (-exponent).toNat)
    (n * Nat.pow 2 exponent.toNat * Nat.pow 10 (-d.exponent).toNat)

def RoundingInterval.contains (interval : RoundingInterval) (d : Scaled) : Bool :=
  match d.compareTo interval.low interval.exponent, d.compareTo interval.high interval.exponent with
  | .gt, .lt => true
  | .eq, _ | _, .eq => interval.closed
  | _, _ => false

def digitCount (n : Nat) : Nat :=
  (Nat.toDigits 10 n).length

def magnitude (numerator denominator : Nat) : Int :=
  if denominator ≤ numerator then digitCount (numerator / denominator) - 1
  else
    let shift := digitCount denominator - digitCount numerator
    if denominator ≤ numerator * Nat.pow 10 shift then -shift else -(shift + 1)

def Binary.neighbours (x : Binary) (exponent : Int) : Scaled × Scaled :=
  let (numerator, denominator) := x.quotient
  let below := numerator * Nat.pow 10 (-exponent).toNat / (denominator * Nat.pow 10 exponent.toNat)
  (⟨below, exponent⟩, ⟨below + 1, exponent⟩)

/-- The neighbour on the grid `10 ^ exponent` that reads back as `x`; of two the nearer, and
    between equally near ones the even one. -/
def Binary.onGrid? (x : Binary) (exponent : Int) : Option Scaled :=
  let (below, above) := x.neighbours exponent
  match x.interval.contains below, x.interval.contains above with
  | false, false => none
  | true, false => some below
  | false, true => some above
  | true, true =>
    match Scaled.compareTo ⟨2 * below.digits + 1, exponent⟩ (2 * x.mantissa) x.exponent with
    | .gt => some below
    | .lt => some above
    | .eq => some (if below.digits % 2 = 0 then below else above)

/-- Seventeen digits always suffice, so the alternative is never taken. -/
def Binary.shortest (x : Binary) : Scaled :=
  let (numerator, denominator) := x.quotient
  let first := magnitude numerator denominator
  let found := (List.range 17).findSome? fun (count : Nat) => x.onGrid? (first - count)
  found.getD ⟨x.mantissa, 0⟩

end CoreTiming.Decimal
