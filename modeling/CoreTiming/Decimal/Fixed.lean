import CoreTiming.Decimal.Binary

namespace CoreTiming.Decimal

/-- The integer nearest to `numerator / denominator`, the even one of two equally near ones. -/
def roundQuotient (numerator denominator : Nat) : Nat :=
  let below := numerator / denominator
  let rest := 2 * (numerator % denominator)
  if rest < denominator then below
  else if denominator < rest then below + 1
  else if below % 2 = 0 then below else below + 1

def padded (width n : Nat) : String :=
  let digits := toString n
  String.ofList (List.replicate (width - digits.length) '0') ++ digits

def Binary.fixed (places : Nat) (x : Binary) : String :=
  let (numerator, denominator) := x.quotient
  let scaled := roundQuotient (numerator * Nat.pow 10 places) denominator
  let sign := if x.negative then "-" else ""
  sign ++ toString (scaled / Nat.pow 10 places) ++ "." ++ padded places (scaled % Nat.pow 10 places)

def Double.fixed (places : Nat) : Double → String
  | .finite x => x.fixed places
  | .infinite negative => if negative then "-inf" else "inf"
  | .undefined => "NaN"

end CoreTiming.Decimal
